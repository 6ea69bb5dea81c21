import ZenthDht.Model.Commit
import ZenthDht.Spec.Run

/-!
# Relay entries over PostgreSQL

What a move of `postgres` does to `relay_messages`: the rows change as `relayEffect` says of the
event, and a new row has an id that no other row has or had (`Numbered`), whether the id is
drawn in the same step or before.
-/

namespace ZenthDht

open Conc

/-! ## The table -/

/-- What an event does to the rows of `relay_messages`. -/
def relayEffect (rows : List RelayMessage) : Event Res → List RelayMessage
  | ⟨.sql (.insertRelay n), .ok id⟩ => rows ++ [n.row id]
  | ⟨.sql (.deleteRelayUpTo d i), .ok _⟩ =>
    rows.filter fun x ↦ !(x.forDeviceDilithiumPubkey = d && decide (x.id ≤ i.toInt))
  | ⟨.sql (.purgeRelay n), .ok _⟩ => rows.filter fun x ↦ !decide (x.expiresAt < n)
  | _ => rows

section

variable {rows : List RelayMessage} {now : NaiveDateTime} {db : Db}

theorem relayEffect_error (s : Stmt) (e : DieselError) :
    relayEffect rows ⟨.sql s, .error e⟩ = rows := by
  cases s <;> rfl

theorem relayEffect_other {o : Op} (ho : ∀ s, o ≠ .sql s) (r : Res o) :
    relayEffect rows ⟨o, r⟩ = rows := by
  cases o with
  | sql s => exact absurd rfl (ho s)
  | _ => rfl

theorem relayEffect_exec (s : Stmt) :
    (s.exec now db).2.relayMessages = relayEffect db.relayMessages ⟨.sql s, (s.exec now db).1⟩ := by
  cases s with
  | insertRelay n => rfl
  | deleteRelayUpTo d i => rfl
  | purgeRelay n => rfl
  | _ =>
      simp only [Stmt.exec, relayEffect]
      repeat' split
      all_goals rfl

/-- Only an INSERT adds rows. -/
theorem relayEffect_sublist {e : Event Res}
    (he : ∀ n id, e ≠ ⟨.sql (.insertRelay n), .ok id⟩) : (relayEffect rows e).Sublist rows := by
  unfold relayEffect
  split
  next n id => exact absurd rfl (he n id)
  · exact List.filter_sublist
  · exact List.filter_sublist
  · exact .refl _

theorem seq_relay_exec {s : Stmt} (hs : ∀ n, s ≠ .insertRelay n) :
    (s.exec now db).2.seq.relayMessages = db.seq.relayMessages := by
  cases s with
  | insertRelay n => exact absurd rfl (hs n)
  | _ =>
      simp only [Stmt.exec]
      repeat' split
      all_goals rfl

end

/-! ## Steps over PostgreSQL -/

namespace PgWorld

/-- The visible rows. -/
abbrev rows (w : PgWorld) : List RelayMessage := w.world.db.relayMessages

/-- The next id. -/
abbrev next (w : PgWorld) : Nat := w.world.db.seq.relayMessages

abbrev clock (w : PgWorld) : Nat := w.world.clock

end PgWorld

section

variable {codec : Codec} {verifyDetached : Bytes → Bytes → Bytes → Bool}
variable {o : Op} {r : Res o} {w w' : PgWorld}

theorem perform_clock {o : Op} {r : Res o} {ω : Oracle} {w w' : World}
    (h : perform verifyDetached o ω w = some (r, w')) : w'.clock = w.clock := by
  cases o with
  | sql s =>
      rcases perform_sql h with ⟨rfl, -⟩ | ⟨-, rfl⟩
      · rfl
      · rfl
  | select rx => rw [(perform_select h).1]
  | _ =>
      cases ω <;> simp only [perform, Option.some.injEq, Prod.mk.injEq, reduceCtorEq] at h <;>
        exact h.2 ▸ rfl

/-- The three ways an operation is performed: by the server, as the commit of an INSERT that has
drawn its id, or as the failure of one. -/
theorem performPg_cases {ω : PgOracle} (h : performPg verifyDetached o ω w = some (r, w')) :
    (∃ ω', ω = .server ω' ∧ perform verifyDetached o ω' w.world = some (r, w'.world) ∧
      w'.drawn = w.drawn) ∨
    (∃ n id, ω = .commit id ∧ (⟨o, r⟩ : Event Res) = ⟨.sql (.insertRelay n), .ok id⟩ ∧
      id ∈ w.drawn ∧ w' = w.insertRelay n id) ∨
    ∃ n id e, (⟨o, r⟩ : Event Res) = ⟨.sql (.insertRelay n), .error e⟩ ∧
      w' = { w with drawn := w.drawn.erase id } := by
  unfold performPg at h
  split at h
  next ω' =>
    obtain ⟨⟨r', w₁⟩, hp, he⟩ := Option.map_eq_some_iff.mp h
    obtain ⟨rfl, rfl⟩ := Prod.mk.inj he
    exact .inl ⟨ω', rfl, hp, rfl⟩
  next n id =>
    split at h
    next hid =>
      obtain ⟨rfl, rfl⟩ := Prod.mk.inj (Option.some.inj h)
      exact .inr (.inl ⟨n, id, rfl, rfl, hid, rfl⟩)
    · exact nomatch h
  next n id m =>
    split at h
    · obtain ⟨rfl, rfl⟩ := Prod.mk.inj (Option.some.inj h)
      exact .inr (.inr ⟨n, id, _, rfl, rfl⟩)
    · exact nomatch h
  · exact nomatch h

variable {ω : PgOracle}

theorem performPg_clock (h : performPg verifyDetached o ω w = some (r, w')) :
    w'.clock = w.clock := by
  rcases performPg_cases h with ⟨ω', -, hp, -⟩ | ⟨n, id, -, -, -, rfl⟩ | ⟨n, id, e, -, rfl⟩
  · exact perform_clock hp
  · rfl
  · rfl

theorem performPg_readsClock {now : Nat}
    (h : performPg verifyDetached .clock ω w = some (now, w')) : now = w.clock := by
  rcases performPg_cases h with ⟨ω', -, hp, -⟩ | ⟨n, id, -, he, -⟩ | ⟨n, id, e, he, -⟩
  · exact (Prod.mk.inj (Option.some.inj hp)).1.symm
  · exact nomatch congrArg Sigma.fst he
  · exact nomatch congrArg Sigma.fst he

theorem performPg_rows (h : performPg verifyDetached o ω w = some (r, w')) :
    w'.rows = relayEffect w.rows ⟨o, r⟩ := by
  rcases performPg_cases h with ⟨ω', -, hp, -⟩ | ⟨n, id, -, he, -, rfl⟩ | ⟨n, id, e, he, rfl⟩
  · by_cases ho : ∃ s, o = .sql s
    · obtain ⟨s, rfl⟩ := ho
      rcases perform_sql hp with ⟨hw, e, rfl⟩ | ⟨rfl, hw⟩
      · rw [relayEffect_error, PgWorld.rows, hw]
      · rw [PgWorld.rows, hw, ← relayEffect_exec]
    · rw [relayEffect_other fun s hs ↦ ho ⟨s, hs⟩, PgWorld.rows,
        perform_db (fun s hs ↦ ho ⟨s, hs⟩) hp]
  · rw [he]
    rfl
  · rw [he]
    rfl

/-- What a load returns. -/
theorem performPg_load {d : Bytes} {since : Int64} {now : NaiveDateTime} {limit : Nat}
    {rows : List (Nat × Bytes × Bytes)}
    (h : performPg verifyDetached (.sql (.loadRelay d since now limit)) ω w = some (.ok rows, w')) :
    rows = (((w.rows.filter fun x ↦ x.forDeviceDilithiumPubkey = d &&
        decide (since.toInt < x.id) && decide (now < x.expiresAt)).insertionSort
      fun x y ↦ x.id ≤ y.id).take limit).map fun x ↦ (x.id, x.ciphertext, x.nonce) := by
  rcases performPg_cases h with ⟨ω', -, hp, -⟩ | ⟨n, id, -, he, -⟩ | ⟨n, id, e, he, -⟩
  · rcases perform_sql hp with ⟨-, e, he⟩ | ⟨hr, -⟩
    · exact nomatch he
    · exact Except.ok.inj hr
  · exact nomatch congrArg Sigma.fst he
  · exact nomatch congrArg Sigma.fst he

/-- The id of a new row is the next one, or it had been drawn before. -/
theorem performPg_insert {n : NewRelayMessage} {id : Nat}
    (h : performPg verifyDetached (.sql (.insertRelay n)) ω w = some (.ok id, w')) :
    ((∃ ω', ω = .server ω') ∧ id = w.next ∧ w'.next = w.next + 1 ∧ w'.drawn = w.drawn) ∨
    ω = .commit id ∧ id ∈ w.drawn ∧ w'.next = w.next ∧ w'.drawn = w.drawn.erase id := by
  rcases performPg_cases h with ⟨ω', rfl, hp, hd⟩ | ⟨n', id', rfl, he, hid, rfl⟩ | ⟨n', id', e, he, -⟩
  · rcases perform_sql hp with ⟨-, e, he⟩ | ⟨hr, hw⟩
    · exact nomatch he
    · refine .inl ⟨⟨ω', rfl⟩, Except.ok.inj hr, ?_, hd⟩
      rw [PgWorld.next, hw]
      rfl
  · cases he
    exact .inr ⟨rfl, hid, rfl, rfl⟩
  · cases he

/-- No other operation touches the sequence, or draws an id. -/
theorem performPg_next (h : performPg verifyDetached o ω w = some (r, w'))
    (hno : ∀ n id, (⟨o, r⟩ : Event Res) ≠ ⟨.sql (.insertRelay n), .ok id⟩) :
    w'.next = w.next ∧ w'.drawn.Sublist w.drawn := by
  rcases performPg_cases h with ⟨ω', -, hp, hd⟩ | ⟨n, id, -, he, -, rfl⟩ | ⟨n, id, e, he, rfl⟩
  · refine ⟨?_, hd ▸ .refl _⟩
    by_cases ho : ∃ s, o = .sql s
    · obtain ⟨s, rfl⟩ := ho
      rcases perform_sql hp with ⟨hw, e, rfl⟩ | ⟨rfl, hw⟩
      · rw [PgWorld.next, hw]
      · rw [PgWorld.next, hw]
        refine seq_relay_exec ?_
        rintro n rfl
        exact hno n _ rfl
    · rw [PgWorld.next, perform_db (fun s hs ↦ ho ⟨s, hs⟩) hp]
  · exact absurd he (hno n id)
  · exact ⟨rfl, List.erase_sublist⟩

/-- What an act of the environment does to the table. -/
theorem actPg_cases {a : PgAct} (h : actPg a w = some w') :
    (∃ a', a = .server a' ∧ w.rows.Perm w'.rows ∧ w'.next = w.next ∧ w'.drawn = w.drawn ∧
      ((∃ clock instant, a' = .tick clock instant ∧ w'.clock = clock) ∨ w'.clock = w.clock)) ∨
    a = .draw ∧ w' = w.draw := by
  cases a with
  | draw => exact .inr ⟨rfl, (Option.some.inj h).symm⟩
  | server a =>
      obtain ⟨w₁, ha, rfl⟩ := Option.map_eq_some_iff.mp h
      have hsame := act_db ha
      refine .inl ⟨a, rfl, hsame.relayMessages, (congrArg Sequences.relayMessages hsame.seq).symm,
        rfl, ?_⟩
      cases a with
      | tick clock instant =>
          simp only [act] at ha
          split at ha
          · obtain rfl := Option.some.inj ha
            exact .inl ⟨clock, instant, rfl, rfl⟩
          · cases ha
      | setConfig config =>
          obtain rfl := Option.some.inj ha
          exact .inr rfl
      | reorder db =>
          simp only [act] at ha
          split at ha
          · obtain rfl := Option.some.inj ha
            exact .inr rfl
          · cases ha
      | runSpawned i =>
          obtain ⟨_, _, rfl⟩ := Option.map_eq_some_iff.mp ha
          exact .inr rfl

/-! ## Ids -/

/-- The row `x` was inserted for the device `d`. -/
def RelayPushed (d : Bytes) (tr : History) (x : RelayMessage) : Prop :=
  ∃ t n, (t, ⟨.sql (.insertRelay n), .ok x.id⟩) ∈ tr ∧ n.forDeviceDilithiumPubkey = d ∧
    x = n.row x.id

theorem RelayPushed.append {d : Bytes} {tr tr' : History} {x : RelayMessage}
    (h : RelayPushed d tr x) : RelayPushed d (tr ++ tr') x := by
  obtain ⟨t, n, hmem, hd, hx⟩ := h
  exact ⟨t, n, List.mem_append_left _ hmem, hd, hx⟩

theorem RelayPushed.snoc {d : Bytes} {tr : History} {x : RelayMessage} {t : Nat} {e : Event Res}
    (h : RelayPushed d (tr ++ [(t, e)]) x) : RelayPushed d tr x ∨
      ∃ n, e = ⟨.sql (.insertRelay n), .ok x.id⟩ ∧ n.forDeviceDilithiumPubkey = d ∧
        x = n.row x.id := by
  obtain ⟨t', n, hmem, hd, hx⟩ := h
  rcases List.mem_append.mp hmem with hmem | hmem
  · exact .inl ⟨t', n, hmem, hd, hx⟩
  · exact .inr ⟨n, (Prod.mk.inj (List.mem_singleton.mp hmem)).2.symm, hd, hx⟩

/-- Rows come from INSERTs, and an id drawn and not used yet is none of theirs. -/
structure Numbered (w : PgWorld) (tr : History) : Prop where
  nodup : w.rows.Nodup
  rows : ∀ x ∈ w.rows, RelayPushed x.forDeviceDilithiumPubkey tr x
  ids : ∀ {t n id}, (t, ⟨.sql (.insertRelay n), .ok id⟩) ∈ tr → id < w.next ∧ id ∉ w.drawn
  drawn_nodup : w.drawn.Nodup
  drawn_lt : ∀ id ∈ w.drawn, id < w.next
  pos : 0 < w.next

theorem Numbered.initial (clock instant : Nat) : Numbered ⟨.initial clock instant, []⟩ [] :=
  ⟨List.nodup_nil, nofun, nofun, List.nodup_nil, nofun, Nat.one_pos⟩

theorem Numbered.act {a : PgAct} {tr : History} (hn : Numbered w tr) (h : actPg a w = some w') :
    Numbered w' tr := by
  rcases actPg_cases h with ⟨a', -, hperm, hnext, hdrawn, -⟩ | ⟨-, rfl⟩
  · refine ⟨hperm.nodup_iff.mp hn.nodup, fun x hx ↦ hn.rows x (hperm.mem_iff.mpr hx), ?_,
      hdrawn ▸ hn.drawn_nodup, ?_, hnext ▸ hn.pos⟩
    · rw [hnext, hdrawn]
      exact hn.ids
    · rw [hnext, hdrawn]
      exact hn.drawn_lt
  · refine ⟨hn.nodup, hn.rows, fun hmem ↦ ?_, ?_, fun id hid ↦ ?_, Nat.succ_pos _⟩
    · obtain ⟨hlt, hnot⟩ := hn.ids hmem
      refine ⟨Nat.lt_succ_of_lt hlt, fun hid ↦ ?_⟩
      rcases List.mem_append.mp hid with hid | hid
      · exact hnot hid
      · exact hlt.ne (List.mem_singleton.mp hid)
    · refine List.nodup_append.mpr ⟨hn.drawn_nodup, List.nodup_singleton _, fun a ha b hb ↦ ?_⟩
      rw [List.mem_singleton.mp hb]
      exact (hn.drawn_lt a ha).ne
    · rcases List.mem_append.mp hid with hid | hid
      · exact Nat.lt_succ_of_lt (hn.drawn_lt id hid)
      · rw [List.mem_singleton.mp hid]
        exact Nat.lt_succ_self _

/-- A new row has an id that no INSERT has returned. -/
theorem Numbered.fresh {tr : History} {n : NewRelayMessage} {id : Nat} (hn : Numbered w tr)
    (h : performPg verifyDetached (.sql (.insertRelay n)) ω w = some (.ok id, w')) {t' : Nat}
    {n' : NewRelayMessage} : (t', ⟨.sql (.insertRelay n'), .ok id⟩) ∉ tr := by
  intro hmem
  obtain ⟨hlt, hnot⟩ := hn.ids hmem
  rcases performPg_insert h with ⟨-, rfl, -⟩ | ⟨-, hid, -⟩
  · exact Nat.lt_irrefl _ hlt
  · exact hnot hid

theorem Numbered.step {tr : History} {t : Nat} (hn : Numbered w tr)
    (h : performPg verifyDetached o ω w = some (r, w')) : Numbered w' (tr ++ [(t, ⟨o, r⟩)]) := by
  by_cases hins : ∃ n id, (⟨o, r⟩ : Event Res) = ⟨.sql (.insertRelay n), .ok id⟩
  · obtain ⟨n, id, he⟩ := hins
    cases he
    have hrows : w'.rows = w.rows ++ [n.row id] := performPg_rows h
    have hnew : n.row id ∉ w.rows := fun hx ↦ by
      obtain ⟨t', n', hmem, -⟩ := hn.rows _ hx
      exact hn.fresh h hmem
    have hids : id < w'.next ∧ id ∉ w'.drawn ∧ w.next ≤ w'.next ∧ w'.drawn.Sublist w.drawn := by
      rcases performPg_insert h with ⟨-, rfl, hnext, hdrawn⟩ | ⟨-, hid, hnext, hdrawn⟩
      · rw [hnext, hdrawn]
        exact ⟨Nat.lt_succ_self _, fun hid ↦ Nat.lt_irrefl _ (hn.drawn_lt _ hid), Nat.le_succ _,
          .refl _⟩
      · rw [hnext, hdrawn]
        exact ⟨hn.drawn_lt id hid, hn.drawn_nodup.not_mem_erase, le_rfl, List.erase_sublist⟩
    obtain ⟨hlt, hnot, hle, hsub⟩ := hids
    refine ⟨?_, fun x hx ↦ ?_, fun hmem ↦ ?_, hn.drawn_nodup.sublist hsub,
      fun i hi ↦ (hn.drawn_lt i (hsub.subset hi)).trans_le hle, hn.pos.trans_le hle⟩
    · rw [hrows, ← List.concat_eq_append]
      exact hn.nodup.concat hnew
    · rw [hrows] at hx
      rcases List.mem_append.mp hx with hx | hx
      · exact (hn.rows x hx).append
      · obtain rfl := List.mem_singleton.mp hx
        exact ⟨t, n, List.mem_append_right _ (List.mem_singleton.mpr rfl), rfl, rfl⟩
    · rcases List.mem_append.mp hmem with hmem | hmem
      · obtain ⟨hlt', hnot'⟩ := hn.ids hmem
        exact ⟨hlt'.trans_le hle, fun hi ↦ hnot' (hsub.subset hi)⟩
      · cases List.mem_singleton.mp hmem
        exact ⟨hlt, hnot⟩
  · have hno : ∀ n id, (⟨o, r⟩ : Event Res) ≠ ⟨.sql (.insertRelay n), .ok id⟩ :=
      fun n id he ↦ hins ⟨n, id, he⟩
    obtain ⟨hnext, hsub⟩ := performPg_next h hno
    have hrows : w'.rows.Sublist w.rows := performPg_rows h ▸ relayEffect_sublist hno
    refine ⟨hn.nodup.sublist hrows, fun x hx ↦ (hn.rows x (hrows.subset hx)).append,
      fun {t' n id} hmem ↦ ?_, hn.drawn_nodup.sublist hsub, ?_, hnext ▸ hn.pos⟩
    · rw [hnext]
      rcases List.mem_append.mp hmem with hmem | hmem
      · exact ⟨(hn.ids hmem).1, fun hi ↦ (hn.ids hmem).2 (hsub.subset hi)⟩
      · exact absurd (Prod.mk.inj (List.mem_singleton.mp hmem)).2.symm (hno n id)
    · rw [hnext]
      exact fun i hi ↦ hn.drawn_lt i (hsub.subset hi)

/-- A server whose statements are executed at once is a case of this one. -/
theorem server_embeds (codec : Codec) (verifyDetached : Bytes → Bytes → Bytes → Bool) :
    (server codec verifyDetached).Embeds (fun w ↦ ⟨w, []⟩) .server .server
      (postgres codec verifyDetached) where
  code := rfl
  perform o ω w := by
    cases o <;> rfl
  act _ _ := rfl

end

end ZenthDht
