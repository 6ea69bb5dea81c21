import ZenthDht.Spec.Alone

/-!
# Requests one after another

A request that runs alone does to the rows what its statements do, executed one after another
(`replays_of_alone`): the clock moves and PostgreSQL reorders rows between them, and that is all.
`InSequence` is a run of such requests, each answered, or ended by a panic, before the next one is
started.
-/

namespace ZenthDht

open Conc Stmt

variable {codec : Codec} {verifyDetached : Bytes → Bytes → Bytes → Bool}
variable {c c' : State} {db db' db'' : Db} {ms : Moves} {job : Job}

/-! ## The statements of a request -/

/-- What one event does to the rows: a statement is executed at some time on the rows in some
order, or fails for a reason of its own; nothing else touches them. -/
def Effect (db db' : Db) : Event Res → Prop
  | ⟨.sql s, r⟩ => ∃ db₀ now, db.Same db₀ ∧
      ((r = (s.exec now db₀).1 ∧ db' = (s.exec now db₀).2) ∨ (db' = db₀ ∧ ∃ e, r = .error (.other e)))
  | _ => db.Same db'

/-- The events turn the rows of `db` into those of `db'`. -/
def Replays : Past → Db → Db → Prop
  | [], db, db' => db.Same db'
  | e :: past, db, db' => ∃ db₁, Effect db db₁ e ∧ Replays past db₁ db'

theorem Replays.same {past : Past} (h : Replays past db db') (hs : db'.Same db'') :
    Replays past db db'' := by
  induction past generalizing db with
  | nil => exact Db.Same.trans h hs
  | cons e past ih =>
      obtain ⟨db₁, he, h⟩ := h
      exact ⟨db₁, he, ih h⟩

theorem Effect.before {e : Event Res} (h : Effect db' db'' e) (hs : db.Same db') :
    Effect db db'' e := by
  obtain ⟨o, r⟩ := e
  cases o with
  | sql s =>
      obtain ⟨db₀, now, h₀, heff⟩ := h
      exact ⟨db₀, now, hs.trans h₀, heff⟩
  | _ => exact hs.trans h

theorem Replays.snoc {past : Past} {e : Event Res} (h : Replays past db db')
    (he : Effect db' db'' e) : Replays (past ++ [e]) db db'' := by
  induction past generalizing db with
  | nil => exact ⟨db'', he.before h, .rfl⟩
  | cons e' past ih =>
      obtain ⟨db₁, he', h⟩ := h
      exact ⟨db₁, he', ih h⟩

theorem replays_append {past past' : Past} : Replays (past ++ past') db db'' ↔
    ∃ db', Replays past db db' ∧ Replays past' db' db'' := by
  induction past generalizing db with
  | nil =>
      constructor
      · intro h
        exact ⟨db, .rfl, h⟩
      · rintro ⟨db', hs, h⟩
        cases past' with
        | nil => exact Db.Same.trans hs h
        | cons e past' =>
            obtain ⟨db₁, he, h⟩ := h
            exact ⟨db₁, he.before hs, h⟩
  | cons e past ih =>
      simp only [List.cons_append, Replays, ih]
      constructor
      · rintro ⟨db₁, he, db', h, h'⟩
        exact ⟨db', ⟨db₁, he, h⟩, h'⟩
      · rintro ⟨db', ⟨db₁, he, h⟩, h'⟩
        exact ⟨db₁, he, db', h, h'⟩

/-- The effect of a step on the rows is that of its event. -/
theorem effect_of_perform {o : Op} {ω : Oracle} {w w' : World} {r : Res o}
    (hp : perform verifyDetached o ω w = some (r, w')) : Effect w.db w'.db ⟨o, r⟩ := by
  cases o with
  | sql s =>
      refine ⟨w.db, w.clock, .rfl, ?_⟩
      rcases perform_sql hp with ⟨rfl, e, rfl⟩ | ⟨rfl, rfl⟩
      · exact .inr ⟨rfl, e, rfl⟩
      · exact .inl ⟨rfl, rfl⟩
  | _ =>
      have hdb := perform_db (by nofun) hp
      simp only [Effect, hdb]
      exact .rfl

/-- **Replaying.**  A request that runs alone turns the rows into what its statements make of
them. -/
theorem Reachable.replays (hc : Reachable codec verifyDetached c)
    (h : (server codec verifyDetached).run c (.spawn job :: ms) = some c')
    (halone : ∀ m ∈ ms, m.Alone c.pool.length) :
    Replays (past c.pool.length c'.trace) c.world.db c'.world.db := by
  obtain ⟨d, hd, h⟩ := Machine.run_cons.mp h
  obtain rfl := Option.some.inj hd
  refine Machine.Along.invariant (S := fun _ m ↦ m.Alone c.pool.length)
    (I := fun d ↦ Replays (past c.pool.length d.trace) c.world.db d.world.db) ?_
    (Machine.along_of_forall fun ms₁ m ms₂ _ hms _ ↦ halone m (by simp [hms])) h ?_
  · intro d m d' hI hm hs
    cases hs with
    | spawn j => exact hm.elim
    | @step u ω j o k r w hu hp =>
        obtain rfl : u = c.pool.length := hm
        rw [past_append, past_singleton_self]
        exact hI.snoc (effect_of_perform hp)
    | act ha => exact hI.same (act_db ha)
  · change Replays (past c.pool.length c.trace) c.world.db c.world.db
    rw [hc.no_past]
    exact .rfl

/-! ## Sequences -/

/-- A request that has run: what was asked, what was answered, or nothing if its handler has
panicked, and what was done for it. -/
structure Exchange where
  call : Call
  reply : Option Reply
  past : Past

/-- The request of thread `t` has ended. -/
def Ended (c : State) (t : Nat) (call : Call) : Option Reply → Prop
  | some reply => c.answered t = some (.request call, reply)
  | none => c.performs t = some (.request call, .panic)

/-- What a request has done when it ends, if its handler never panics. -/
theorem Ended.done {t : Nat} {call : Call} {reply : Option Reply} {post : Past → Reply → Prop}
    (h : Ended c t call reply) (hc : Reachable codec verifyDetached c)
    (hobeys : (processCall codec call).Obeys (fun _ o ↦ o ≠ .panic) post []) :
    ∃ r, reply = some r ∧ post (past t c.trace) r := by
  cases reply with
  | some r => exact ⟨r, rfl, hc.request_answer hobeys h⟩
  | none =>
      obtain ⟨k, ht⟩ := performs_iff.mp h
      exact absurd rfl (hc.request_guard hobeys ht)

theorem Ended.runs {t : Nat} {call : Call} {reply : Option Reply} (h : Ended c t call reply) :
    Runs c t (.request call) := by
  cases reply with
  | some r => exact ⟨_, answered_iff.mp h⟩
  | none =>
      obtain ⟨k, ht⟩ := performs_iff.mp h
      exact ⟨_, ht⟩

/-- From `c`, requests run one after another, and that leads to `c'`. -/
inductive InSequence (codec : Codec) (verifyDetached : Bytes → Bytes → Bytes → Bool) (c : State) :
    List Exchange → State → Prop
  | nil : InSequence codec verifyDetached c [] c
  | snoc {es : List Exchange} {c₁ c₂ : State} {call : Call} {reply : Option Reply} {ms : Moves}
      (h : InSequence codec verifyDetached c es c₁)
      (hrun : (server codec verifyDetached).run c₁ (.spawn (.request call) :: ms) = some c₂)
      (halone : ∀ m ∈ ms, m.Alone c₁.pool.length) (hend : Ended c₂ c₁.pool.length call reply) :
      InSequence codec verifyDetached c (es ++ [⟨call, reply, past c₁.pool.length c₂.trace⟩]) c₂

theorem InSequence.append {d : State} {es es' : List Exchange}
    (h : InSequence codec verifyDetached c es d) (h' : InSequence codec verifyDetached d es' c') :
    InSequence codec verifyDetached c (es ++ es') c' := by
  induction h' with
  | nil => rwa [List.append_nil]
  | snoc _ hrun halone hend ih =>
      rw [← List.append_assoc]
      exact ih.snoc hrun halone hend

/-- A sequence in two parts. -/
theorem InSequence.split {es es' : List Exchange}
    (h : InSequence codec verifyDetached c (es ++ es') c') :
    ∃ d, InSequence codec verifyDetached c es d ∧ InSequence codec verifyDetached d es' c' := by
  generalize hes : es ++ es' = l at h
  induction h generalizing es' with
  | nil =>
      obtain ⟨rfl, rfl⟩ := List.append_eq_nil_iff.mp hes
      exact ⟨c, .nil, .nil⟩
  | @snoc l c₁ c₂ call reply ms h hrun halone hend ih =>
      rcases List.eq_nil_or_concat es' with rfl | ⟨es', e, rfl⟩
      · rw [List.append_nil] at hes
        subst hes
        exact ⟨c₂, h.snoc hrun halone hend, .nil⟩
      · rw [List.concat_eq_append, ← List.append_assoc] at hes
        obtain ⟨rfl, he⟩ := List.append_inj' hes rfl
        obtain rfl := (List.cons.inj he).1
        obtain ⟨d, hd, hd'⟩ := ih rfl
        rw [List.concat_eq_append]
        exact ⟨d, hd, hd'.snoc hrun halone hend⟩

/-- A sequence of one request. -/
theorem InSequence.single {e : Exchange} (h : InSequence codec verifyDetached c [e] c') :
    ∃ call reply ms, (server codec verifyDetached).run c (.spawn (.request call) :: ms) = some c' ∧
      (∀ m ∈ ms, m.Alone c.pool.length) ∧ Ended c' c.pool.length call reply ∧
      e = ⟨call, reply, past c.pool.length c'.trace⟩ := by
  generalize hes : [e] = l at h
  cases h with
  | nil => exact nomatch hes
  | snoc h hrun halone hend =>
      rw [← List.nil_append [e]] at hes
      obtain ⟨hnil, he⟩ := List.append_inj' hes rfl
      obtain rfl := (List.cons.inj he).1
      cases h with
      | nil => exact ⟨_, _, _, hrun, halone, hend, rfl⟩
      | snoc => simp at hnil

theorem InSequence.reachable {es : List Exchange} (h : InSequence codec verifyDetached c es c')
    (hc : Reachable codec verifyDetached c) : Reachable codec verifyDetached c' := by
  induction h with
  | nil => exact hc
  | snoc _ hrun _ _ ih => exact ih.run hrun

namespace Sample

/-- Requests run one after another, each for the given number of steps. -/
def exchanges (signed : List (Bytes × Bytes)) :
    State → List (Call × Nat) → Option (List Exchange × State)
  | c, [] => some ([], c)
  | c, (call, n) :: calls =>
    ((system signed).run c (.spawn (.request call) :: steps c.pool.length n)).bind fun c₁ : State ↦
      match c₁.answered c.pool.length with
      | some (job, reply) =>
        if job = .request call then
          (exchanges signed c₁ calls).map fun (es, c₂) ↦
            (⟨call, some reply, past c.pool.length c₁.trace⟩ :: es, c₂)
        else none
      | none => none

theorem inSequence_of_exchanges {signed : List (Bytes × Bytes)} {calls : List (Call × Nat)}
    {c c' : State} {es : List Exchange} (h : exchanges signed c calls = some (es, c')) :
    InSequence Sample.codec (verify signed) c es c' := by
  induction calls generalizing c es with
  | nil =>
      obtain ⟨rfl, rfl⟩ := Prod.mk.inj (Option.some.inj h)
      exact .nil
  | cons call calls ih =>
      obtain ⟨call, n⟩ := call
      obtain ⟨c₁, hrun, h⟩ := Option.bind_eq_some_iff.mp h
      split at h
      next job reply hans =>
        split at h
        next hjob =>
          subst hjob
          obtain ⟨⟨es', c₂⟩, hes, heq⟩ := Option.map_eq_some_iff.mp h
          obtain ⟨rfl, rfl⟩ := Prod.mk.inj heq
          have halone : ∀ m ∈ steps c.pool.length n, m.Alone c.pool.length := by
            intro m hm
            obtain rfl := List.eq_of_mem_replicate hm
            rfl
          have hone : InSequence Sample.codec (verify signed) c
              ([] ++ [⟨call, some reply, past c.pool.length c₁.trace⟩]) c₁ :=
            .snoc .nil hrun halone hans
          exact hone.append (ih hes)
        · exact nomatch h
      · exact nomatch h

end Sample

end ZenthDht
