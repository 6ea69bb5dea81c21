import ZenthDht.Conc.Program
import Mathlib.Data.List.Basic

/-!
# Interleaving programs over a shared world

A `Machine` runs any number of programs over one shared world.  A run is a list of
moves: start a new program, let one program perform its next operation (which is
atomic), or let the environment act.  The order of the moves is the interleaving,
so a statement about every list of moves is a statement about every interleaving.

The configuration keeps, as history, the list of all operations performed so far
together with the program that performed them.  The part of it that belongs to one
program is the past in the sense of `ZenthDht.Conc.Program`, and
`Machine.guard_of_run` is the rule that connects the two: an operation about to be
performed satisfies the guard its program obeys, at the past read off the history.

The other rules of this file find moments in a run: `Machine.run_crossing` the move
at which a property of the configuration is lost, and `Machine.event_moment` the
move that put an event into the history.
-/

namespace ZenthDht.Conc

variable {Op : Type} {Res : Op → Type} {World Job Reply Oracle Act : Type}

/-- A running program and the job it was started for. -/
structure Thread (Res : Op → Type) (Job Reply : Type) where
  job : Job
  rest : Program Res Reply

/-- The shared world, the programs started so far, and the history. -/
structure Config (Res : Op → Type) (World Job Reply : Type) where
  world : World
  pool : List (Thread Res Job Reply)
  trace : List (Nat × Event Res)

/-- What may happen next.  The oracle resolves whatever an operation leaves open. -/
inductive Move (Job Oracle Act : Type)
  | spawn (j : Job)
  | step (t : Nat) (ω : Oracle)
  | act (a : Act)

/-- The programs, the operations and the environment of a system. -/
structure Machine (Res : Op → Type) (World Job Reply Oracle Act : Type) where
  code : Job → Program Res Reply
  perform : (o : Op) → Oracle → World → Option (Res o × World)
  act : Act → World → Option World

/-- Nothing has been started yet. -/
def Config.start (w : World) : Config Res World Job Reply := ⟨w, [], []⟩

/-- The events of thread `t` in a history. -/
def past (t : Nat) (tr : List (Nat × Event Res)) : List (Event Res) :=
  (tr.filter fun e ↦ e.1 = t).map Prod.snd

@[simp] theorem past_nil (t : Nat) : past t ([] : List (Nat × Event Res)) = [] := rfl

@[simp] theorem past_append (t : Nat) (tr tr' : List (Nat × Event Res)) :
    past t (tr ++ tr') = past t tr ++ past t tr' := by simp [past]

@[simp] theorem past_singleton_self (t : Nat) (e : Event Res) : past t [(t, e)] = [e] := by
  simp [past]

@[simp] theorem past_cons_self (t : Nat) (e : Event Res) (tr : List (Nat × Event Res)) :
    past t ((t, e) :: tr) = e :: past t tr := by
  simp [past]

theorem past_singleton_ne {t t' : Nat} (h : t' ≠ t) (e : Event Res) : past t [(t', e)] = [] := by
  simp [past, h]

@[simp] theorem mem_past {t : Nat} {tr : List (Nat × Event Res)} {e : Event Res} :
    e ∈ past t tr ↔ (t, e) ∈ tr := by
  simp [past]

/-- Thread `t` has been started and has not returned. -/
def Config.running (c : Config Res World Job Reply) (t : Nat) : Bool :=
  match c.pool[t]? with
  | some ⟨_, .perform _ _⟩ => true
  | _ => false

namespace Machine

variable (M : Machine Res World Job Reply Oracle Act)

/-- The effect of one move, if it is possible. -/
def next (c : Config Res World Job Reply) :
    Move Job Oracle Act → Option (Config Res World Job Reply)
  | .spawn j => some { c with pool := c.pool ++ [⟨j, M.code j⟩] }
  | .step t ω =>
    match c.pool[t]? with
    | some ⟨j, .perform o k⟩ =>
      (M.perform o ω c.world).map fun (r, w) ↦
        ⟨w, c.pool.set t ⟨j, k r⟩, c.trace ++ [(t, ⟨o, r⟩)]⟩
    | _ => none
  | .act a => (M.act a c.world).map fun w ↦ { c with world := w }

/-- The effect of a list of moves, if they are all possible. -/
def run : Config Res World Job Reply → List (Move Job Oracle Act) →
    Option (Config Res World Job Reply)
  | c, [] => some c
  | c, m :: ms => (M.next c m).bind fun c' ↦ run c' ms

/-- The three kinds of moves, with all that is known about each. -/
inductive Step (c : Config Res World Job Reply) :
    Move Job Oracle Act → Config Res World Job Reply → Prop
  | spawn (j : Job) : Step c (.spawn j) { c with pool := c.pool ++ [⟨j, M.code j⟩] }
  | step {t : Nat} {ω : Oracle} {j : Job} {o : Op} {k : Res o → Program Res Reply} {r : Res o}
      {w : World} (ht : c.pool[t]? = some ⟨j, .perform o k⟩)
      (hp : M.perform o ω c.world = some (r, w)) :
      Step c (.step t ω) ⟨w, c.pool.set t ⟨j, k r⟩, c.trace ++ [(t, ⟨o, r⟩)]⟩
  | act {a : Act} {w : World} (ha : M.act a c.world = some w) :
      Step c (.act a) { c with world := w }

variable {M} {c c' c₁ c₂ : Config Res World Job Reply} {m : Move Job Oracle Act}
variable {ms ms₁ ms₂ : List (Move Job Oracle Act)} {w : World} {t : Nat}

theorem step_of_next (h : M.next c m = some c') : M.Step c m c' := by
  cases m with
  | spawn j =>
      obtain rfl := Option.some.inj h
      exact .spawn j
  | step t ω =>
      simp only [next] at h
      split at h
      · next j o k ht =>
        obtain ⟨⟨r, w⟩, hp, rfl⟩ := Option.map_eq_some_iff.mp h
        exact .step ht hp
      · exact absurd h (by simp)
  | act a =>
      obtain ⟨w, ha, rfl⟩ := Option.map_eq_some_iff.mp h
      exact .act ha

/-- A thread takes the step that its operation allows. -/
theorem next_step {j : Job} {o : Op} {k : Res o → Program Res Reply} {r : Res o} {ω : Oracle}
    (ht : c.pool[t]? = some ⟨j, .perform o k⟩) (hp : M.perform o ω c.world = some (r, w)) :
    M.next c (.step t ω) = some ⟨w, c.pool.set t ⟨j, k r⟩, c.trace ++ [(t, ⟨o, r⟩)]⟩ := by
  simp only [next, ht, hp, Option.map_some]

theorem Step.next (hs : M.Step c m c') : M.next c m = some c' := by
  cases hs with
  | spawn j => rfl
  | step ht hp => exact next_step ht hp
  | act ha => simp only [Machine.next, ha, Option.map_some]

theorem Step.run_cons (hs : M.Step c m c₁) (h : M.run c₁ ms = some c') :
    M.run c (m :: ms) = some c' := by
  rw [Machine.run, hs.next]
  exact h

@[simp] theorem run_nil : M.run c [] = some c := rfl

theorem run_cons : M.run c (m :: ms) = some c' ↔ ∃ c₁, M.next c m = some c₁ ∧ M.run c₁ ms = some c' :=
  Option.bind_eq_some_iff

theorem run_append :
    M.run c (ms₁ ++ ms₂) = some c' ↔ ∃ c₁, M.run c ms₁ = some c₁ ∧ M.run c₁ ms₂ = some c' := by
  induction ms₁ generalizing c with
  | nil => simp
  | cons m ms ih =>
      simp only [List.cons_append, run_cons, ih]
      constructor
      · rintro ⟨d, hd, c₁, h₁, h₂⟩
        exact ⟨c₁, ⟨d, hd, h₁⟩, h₂⟩
      · rintro ⟨c₁, ⟨d, hd, h₁⟩, h₂⟩
        exact ⟨d, hd, c₁, h₁, h₂⟩

/-! ## Invariants and crossings -/

/-- What every move preserves, every run preserves. -/
theorem run_invariant {I : Config Res World Job Reply → Prop}
    (hstep : ∀ {c m c'}, I c → M.Step c m c' → I c') (h : M.run c ms = some c') (hc : I c) :
    I c' := by
  induction ms generalizing c with
  | nil => exact Option.some.inj h ▸ hc
  | cons m ms ih =>
      obtain ⟨c₁, h₁, h₂⟩ := run_cons.mp h
      exact ih h₂ (hstep hc (step_of_next h₁))

/-- A property that holds at the beginning of a run and not at its end is lost at
some move of the run. -/
theorem run_crossing (P : Config Res World Job Reply → Prop) (h : M.run c ms = some c')
    (hc : P c) (hc' : ¬ P c') :
    ∃ ms₁ m ms₂ c₁ c₂, ms = ms₁ ++ m :: ms₂ ∧ M.run c ms₁ = some c₁ ∧ P c₁ ∧
      M.Step c₁ m c₂ ∧ ¬ P c₂ ∧ M.run c₂ ms₂ = some c' := by
  induction ms generalizing c with
  | nil => exact absurd (Option.some.inj h ▸ hc) hc'
  | cons m ms ih =>
      obtain ⟨d, hd, h'⟩ := run_cons.mp h
      by_cases hP : P d
      · obtain ⟨ms₁, m', ms₂, c₁, c₂, rfl, h₁, hP₁, hs, hP₂, h₂⟩ := ih h' hP
        exact ⟨m :: ms₁, m', ms₂, c₁, c₂, rfl, run_cons.mpr ⟨d, hd, h₁⟩, hP₁, hs, hP₂, h₂⟩
      · exact ⟨[], m, ms, c, d, rfl, rfl, hc, step_of_next hd, hP, h'⟩

/-! ## Conditions on every move -/

/-- Every move of the run satisfies `S` in the configuration it is made in. -/
def Along (M : Machine Res World Job Reply Oracle Act)
    (S : Config Res World Job Reply → Move Job Oracle Act → Prop) :
    Config Res World Job Reply → List (Move Job Oracle Act) → Prop
  | _, [] => True
  | c, m :: ms => S c m ∧ ∀ c', M.next c m = some c' → Along M S c' ms

/-- `Along`, computed. -/
def check (M : Machine Res World Job Reply Oracle Act)
    (S : Config Res World Job Reply → Move Job Oracle Act → Bool) :
    Config Res World Job Reply → List (Move Job Oracle Act) → Bool
  | _, [] => true
  | c, m :: ms => S c m &&
    match M.next c m with
    | some c' => check M S c' ms
    | none => true

theorem along_of_check {S : Config Res World Job Reply → Move Job Oracle Act → Prop}
    [∀ c m, Decidable (S c m)] (h : M.check (fun c m ↦ decide (S c m)) c ms = true) :
    M.Along S c ms := by
  induction ms generalizing c with
  | nil => trivial
  | cons m ms ih =>
      simp only [check, Bool.and_eq_true, decide_eq_true_eq] at h
      refine ⟨h.1, fun c' hc' ↦ ih ?_⟩
      simpa only [hc'] using h.2

theorem Along.at {S : Config Res World Job Reply → Move Job Oracle Act → Prop}
    (h : M.Along S c (ms₁ ++ m :: ms₂)) (h₁ : M.run c ms₁ = some c₁) : S c₁ m := by
  induction ms₁ generalizing c with
  | nil => exact Option.some.inj h₁ ▸ h.1
  | cons m' ms ih =>
      obtain ⟨d, hd, h'⟩ := run_cons.mp h₁
      exact ih (h.2 d hd) h'

theorem along_of_forall {S : Config Res World Job Reply → Move Job Oracle Act → Prop}
    (h : ∀ ms₁ m ms₂ c₁, ms = ms₁ ++ m :: ms₂ → M.run c ms₁ = some c₁ → S c₁ m) :
    M.Along S c ms := by
  induction ms generalizing c with
  | nil => trivial
  | cons m ms ih =>
      refine ⟨h [] m ms c rfl rfl, fun c' hc' ↦ ih fun ms₁ m' ms₂ c₁ hms h₁ ↦ ?_⟩
      exact h (m :: ms₁) m' ms₂ c₁ (by rw [hms, List.cons_append]) (run_cons.mpr ⟨c', hc', h₁⟩)

/-- What every move that satisfies `S` preserves, every run of such moves preserves. -/
theorem Along.invariant {S : Config Res World Job Reply → Move Job Oracle Act → Prop}
    {I : Config Res World Job Reply → Prop}
    (hstep : ∀ {c m c'}, I c → S c m → M.Step c m c' → I c') (ha : M.Along S c ms)
    (h : M.run c ms = some c') (hc : I c) : I c' := by
  induction ms generalizing c with
  | nil => exact Option.some.inj h ▸ hc
  | cons m ms ih =>
      obtain ⟨c₁, h₁, h₂⟩ := run_cons.mp h
      exact ih (ha.2 c₁ h₁) h₂ (hstep hc ha.1 (step_of_next h₁))

theorem Along.left {S : Config Res World Job Reply → Move Job Oracle Act → Prop}
    (h : M.Along S c (ms₁ ++ ms₂)) : M.Along S c ms₁ := by
  induction ms₁ generalizing c with
  | nil => trivial
  | cons m ms ih => exact ⟨h.1, fun c' hc' ↦ ih (h.2 c' hc')⟩

theorem Along.right {S : Config Res World Job Reply → Move Job Oracle Act → Prop}
    (h : M.Along S c (ms₁ ++ ms₂)) (h₁ : M.run c ms₁ = some c₁) : M.Along S c₁ ms₂ := by
  induction ms₁ generalizing c with
  | nil => exact Option.some.inj h₁ ▸ h
  | cons m ms ih =>
      obtain ⟨d, hd, h'⟩ := run_cons.mp h₁
      exact ih (h.2 d hd) h'

theorem Along.mono {S S' : Config Res World Job Reply → Move Job Oracle Act → Prop}
    (hS : ∀ c m, S c m → S' c m) (h : M.Along S c ms) : M.Along S' c ms := by
  induction ms generalizing c with
  | nil => trivial
  | cons m ms ih => exact ⟨hS c m h.1, fun c' hc' ↦ ih (h.2 c' hc')⟩

theorem Along.and {S S' : Config Res World Job Reply → Move Job Oracle Act → Prop}
    (h : M.Along S c ms) (h' : M.Along S' c ms) : M.Along (fun d m ↦ S d m ∧ S' d m) c ms := by
  induction ms generalizing c with
  | nil => trivial
  | cons m ms ih => exact ⟨⟨h.1, h'.1⟩, fun c' hc' ↦ ih (h.2 c' hc') (h'.2 c' hc')⟩

/-! ## What a run shows -/

/-- What `f` sees of the moves of a run, in their order. -/
def seen {α : Type} (M : Machine Res World Job Reply Oracle Act)
    (f : Config Res World Job Reply → Move Job Oracle Act → Option α) :
    Config Res World Job Reply → List (Move Job Oracle Act) → List α
  | _, [] => []
  | c, m :: ms => (f c m).toList ++
    match M.next c m with
    | some c' => seen M f c' ms
    | none => []

/-- What every move that satisfies `S` preserves while `f` sees it, holds after a run of such moves
of all that `f` has seen. -/
theorem Along.seen {α : Type} {f : Config Res World Job Reply → Move Job Oracle Act → Option α}
    {S : Config Res World Job Reply → Move Job Oracle Act → Prop}
    {I : List α → Config Res World Job Reply → Prop}
    (hstep : ∀ {l c m c'}, I l c → S c m → M.Step c m c' → I (l ++ (f c m).toList) c')
    (ha : M.Along S c ms) (h : M.run c ms = some c') {l : List α} (hc : I l c) :
    I (l ++ M.seen f c ms) c' := by
  induction ms generalizing c l with
  | nil =>
      obtain rfl := Option.some.inj h
      simpa only [Machine.seen, List.append_nil] using hc
  | cons m ms ih =>
      obtain ⟨c₁, h₁, h₂⟩ := run_cons.mp h
      have hrest := ih (ha.2 c₁ h₁) h₂ (hstep hc ha.1 (step_of_next h₁))
      simpa only [Machine.seen, h₁, List.append_assoc] using hrest

theorem seen_append {α : Type} {f : Config Res World Job Reply → Move Job Oracle Act → Option α}
    (h : M.run c ms₁ = some c') : M.seen f c (ms₁ ++ ms₂) = M.seen f c ms₁ ++ M.seen f c' ms₂ := by
  induction ms₁ generalizing c with
  | nil =>
      obtain rfl := Option.some.inj h
      rfl
  | cons m ms ih =>
      obtain ⟨c₁, h₁, h₂⟩ := run_cons.mp h
      simp only [List.cons_append, seen, h₁, ih h₂, List.append_assoc]

/-- What is seen of two moves of a run, in their order. -/
theorem seen_two {α : Type} {f : Config Res World Job Reply → Move Job Oracle Act → Option α}
    {m' : Move Job Oracle Act} {ms' : List (Move Job Oracle Act)}
    {d₁ d₂ : Config Res World Job Reply} {x y : α}
    (h : M.run c (ms₁ ++ m :: (ms₂ ++ m' :: ms')) = some c') (h₁ : M.run c ms₁ = some d₁)
    (hx : f d₁ m = some x) (h₂ : M.run c (ms₁ ++ m :: ms₂) = some d₂) (hy : f d₂ m' = some y) :
    [x, y].Sublist (M.seen f c (ms₁ ++ m :: (ms₂ ++ m' :: ms'))) := by
  obtain ⟨e₁, he₁, h⟩ := run_append.mp h
  obtain rfl := Option.some.inj (h₁.symm.trans he₁)
  obtain ⟨e₂, he₂, h⟩ := run_cons.mp h
  obtain ⟨e₃, he₃, h⟩ := run_append.mp h
  have hd₂ : M.run c (ms₁ ++ m :: ms₂) = some e₃ :=
    run_append.mpr ⟨d₁, h₁, run_cons.mpr ⟨e₂, he₂, he₃⟩⟩
  obtain rfl := Option.some.inj (h₂.symm.trans hd₂)
  rw [seen_append h₁, seen, hx, he₂]
  dsimp only
  rw [seen_append he₃, seen, hy]
  refine List.Sublist.trans ?_ (List.sublist_append_right _ _)
  refine (List.Sublist.refl [x]).append ?_
  refine List.Sublist.trans ?_ (List.sublist_append_right _ _)
  exact List.sublist_append_left [y] _

/-! ## History -/

/-- The history only grows. -/
theorem trace_of_run (h : M.run c ms = some c') : ∃ ext, c'.trace = c.trace ++ ext := by
  refine run_invariant (I := fun d ↦ ∃ ext, d.trace = c.trace ++ ext) ?_ h ⟨[], by simp⟩
  rintro d m d' ⟨ext, hext⟩ hs
  cases hs with
  | spawn j => exact ⟨ext, hext⟩
  | @step t ω j o k r w ht hp => exact ⟨ext ++ [(t, ⟨o, r⟩)], by simp [hext]⟩
  | act ha => exact ⟨ext, hext⟩

/-- A thread keeps its job. -/
theorem job_of_run (h : M.run c ms = some c') {th : Thread Res Job Reply}
    (ht : c.pool[t]? = some th) : ∃ th', c'.pool[t]? = some th' ∧ th'.job = th.job := by
  refine run_invariant (I := fun d ↦ ∃ th', d.pool[t]? = some th' ∧ th'.job = th.job) ?_ h
    ⟨th, ht, rfl⟩
  rintro d m d' ⟨th', ht', hj⟩ hs
  cases hs with
  | spawn j => exact ⟨th', by rw [List.getElem?_append_left (List.getElem?_eq_some_iff.mp ht').1, ht'], hj⟩
  | @step u ω j o k r w hu hp =>
      by_cases e : u = t
      · subst e
        obtain ⟨hlt, -⟩ := List.getElem?_eq_some_iff.mp hu
        rw [hu] at ht'
        exact ⟨_, List.getElem?_set_self hlt, by rw [← hj, ← Option.some.inj ht']⟩
      · exact ⟨th', by rw [List.getElem?_set_ne e, ht'], hj⟩
  | act ha => exact ⟨th', ht', hj⟩

/-- A program that has returned does nothing more. -/
theorem past_of_ret (h : M.run c ms = some c') {j : Job} {a : Reply}
    (ht : c.pool[t]? = some ⟨j, .ret a⟩) : past t c'.trace = past t c.trace := by
  refine (run_invariant (I := fun d ↦ d.pool[t]? = some ⟨j, .ret a⟩ ∧
    past t d.trace = past t c.trace) ?_ h ⟨ht, rfl⟩).2
  rintro d m d' ⟨hd, hpast⟩ hs
  obtain ⟨hlt, -⟩ := List.getElem?_eq_some_iff.mp hd
  cases hs with
  | spawn j => exact ⟨by rw [List.getElem?_append_left hlt, hd], hpast⟩
  | @step u ω j' o k r w hu hp =>
      have e : u ≠ t := by
        rintro rfl
        rw [hd] at hu
        exact nomatch hu
      exact ⟨by rw [List.getElem?_set_ne e, hd], by simp [hpast, past_singleton_ne e]⟩
  | act ha => exact ⟨hd, hpast⟩

/-- A thread that runs after a move ran before it, if it was there. -/
theorem Step.running (hs : M.Step c m c') (ht : t < c.pool.length) (h : c'.running t = true) :
    c.running t = true := by
  unfold Config.running at h ⊢
  cases hs with
  | spawn j => rwa [List.getElem?_append_left ht] at h
  | @step u ω j o k r w hu hp =>
      by_cases e : u = t
      · rw [← e, hu]
      · rwa [List.getElem?_set_ne e] at h
  | act ha => exact h

/-- A thread that runs before a move and has returned after it returned in this move. -/
theorem Step.returns (hs : M.Step c m c') (ht : c.running t = true) {j : Job} {a : Reply}
    (ht' : c'.pool[t]? = some ⟨j, .ret a⟩) :
    ∃ ω o k r, c.pool[t]? = some ⟨j, .perform o k⟩ ∧
      M.perform o ω c.world = some (r, c'.world) ∧ k r = .ret a ∧
      c'.pool = c.pool.set t ⟨j, k r⟩ ∧ c'.trace = c.trace ++ [(t, ⟨o, r⟩)] := by
  have hnot : c.pool[t]? ≠ some ⟨j, .ret a⟩ := fun h ↦ by
    simp only [Config.running, h, Bool.false_eq_true] at ht
  have hlt : t < c.pool.length := by
    by_contra hle
    simp only [Config.running, List.getElem?_eq_none (Nat.le_of_not_lt hle),
      Bool.false_eq_true] at ht
  cases hs with
  | spawn j' =>
      rw [List.getElem?_append_left hlt] at ht'
      exact absurd ht' hnot
  | act ha => exact absurd ht' hnot
  | @step u ω j' o k r w hu hp =>
      by_cases e : u = t
      · subst e
        rw [List.getElem?_set_self hlt] at ht'
        obtain ⟨rfl, hk⟩ := Thread.mk.inj (Option.some.inj ht')
        exact ⟨ω, o, k, r, hu, hp, hk, rfl, rfl⟩
      · rw [List.getElem?_set_ne e] at ht'
        exact absurd ht' hnot

/-- Every thread is where its own part of the history has led its code, and threads
not started yet have no history. -/
def Traced (M : Machine Res World Job Reply Oracle Act) (c : Config Res World Job Reply) : Prop :=
  (∀ t th, c.pool[t]? = some th → (M.code th.job).Reaches (past t c.trace) th.rest) ∧
    ∀ t, c.pool.length ≤ t → past t c.trace = []

theorem Step.traced (hc : M.Traced c) (hs : M.Step c m c') : M.Traced c' := by
  obtain ⟨hpool, hnew⟩ := hc
  cases hs with
  | spawn j =>
      refine ⟨fun t th ht ↦ ?_, fun t ht ↦ hnew t ?_⟩
      · rw [List.getElem?_append] at ht
        split at ht
        · exact hpool t th ht
        · next hlt =>
          obtain rfl := List.mem_singleton.mp (List.mem_of_getElem? ht)
          rw [hnew t (Nat.le_of_not_lt hlt)]
          exact .refl
      · simp only [List.length_append, List.length_singleton] at ht
        omega
  | @step u ω j o k r w hu hp =>
      obtain ⟨hlt, -⟩ := List.getElem?_eq_some_iff.mp hu
      refine ⟨fun t th ht ↦ ?_, fun t ht ↦ ?_⟩
      · by_cases e : u = t
        · subst e
          rw [List.getElem?_set_self hlt] at ht
          obtain rfl := Option.some.inj ht
          simpa using (hpool u _ hu).snoc r
        · rw [List.getElem?_set_ne e] at ht
          simpa [past_singleton_ne e] using hpool t th ht
      · rw [List.length_set] at ht
        have e : u ≠ t := by omega
        simpa [past_singleton_ne e] using hnew t ht
  | act ha => exact ⟨hpool, hnew⟩

theorem traced_of_run (h : M.run (.start w) ms = some c) : M.Traced c :=
  run_invariant (fun hc hs ↦ hs.traced hc) h ⟨by simp [Config.start], by simp [Config.start]⟩

/-- A thread that has done something was started. -/
theorem pool_of_mem (h : M.run (.start w) ms = some c) {e : Event Res} (he : (t, e) ∈ c.trace) :
    ∃ th, c.pool[t]? = some th := by
  have hlt : t < c.pool.length := by
    by_contra hle
    have hnil := (traced_of_run h).2 t (Nat.le_of_not_lt hle)
    exact List.not_mem_nil (hnil ▸ mem_past.mpr he)
  exact ⟨_, List.getElem?_eq_getElem hlt⟩

section Guards

variable {guard : Job → List (Event Res) → Op → Prop} {post : Job → List (Event Res) → Reply → Prop}

/-- **The guard rule.**  In a configuration reached by a run, the operation a thread
is about to perform satisfies the guard that the code of its job obeys. -/
theorem guard_of_run (hobeys : ∀ j, (M.code j).Obeys (guard j) (post j) [])
    (h : M.run (.start w) ms = some c) {j : Job} {o : Op} {k : Res o → Program Res Reply}
    (ht : c.pool[t]? = some ⟨j, .perform o k⟩) : guard j (past t c.trace) o :=
  (((traced_of_run h).1 t _ ht).obeys (hobeys j)).1

/-- A reply given in a run satisfies the postcondition of the job. -/
theorem post_of_run (hobeys : ∀ j, (M.code j).Obeys (guard j) (post j) [])
    (h : M.run (.start w) ms = some c) {j : Job} {a : Reply}
    (ht : c.pool[t]? = some ⟨j, .ret a⟩) : post j (past t c.trace) a :=
  ((traced_of_run h).1 t _ ht).obeys (hobeys j)

end Guards

/-- The moment of an event: the move that appended it to the history, with the
configurations around it. -/
theorem event_moment (h : M.run c ms = some c') {pre post : List (Nat × Event Res)} {o : Op}
    {r : Res o} (htr : c'.trace = pre ++ (t, ⟨o, r⟩) :: post)
    (hlen : c.trace.length ≤ pre.length) :
    ∃ ms₁ ω ms₂ c₁ j k w₂, ms = ms₁ ++ .step t ω :: ms₂ ∧ M.run c ms₁ = some c₁ ∧
      c₁.trace = pre ∧ c₁.pool[t]? = some ⟨j, .perform o k⟩ ∧
      M.perform o ω c₁.world = some (r, w₂) ∧
      M.run ⟨w₂, c₁.pool.set t ⟨j, k r⟩, pre ++ [(t, ⟨o, r⟩)]⟩ ms₂ = some c' := by
  induction ms generalizing c with
  | nil =>
      obtain rfl := Option.some.inj h
      rw [htr] at hlen
      simp only [List.length_append, List.length_cons] at hlen
      omega
  | cons m ms ih =>
      obtain ⟨d, hd, h'⟩ := run_cons.mp h
      by_cases hdl : d.trace.length ≤ pre.length
      · obtain ⟨ms₁, ω, ms₂, c₁, j, k, w₂, rfl, h₁, rest⟩ := ih h' hdl
        exact ⟨m :: ms₁, ω, ms₂, c₁, j, k, w₂, rfl, run_cons.mpr ⟨d, hd, h₁⟩, rest⟩
      · -- only a step lengthens the history, and by exactly one event
        cases step_of_next hd with
        | spawn j => exact absurd hlen hdl
        | act ha => exact absurd hlen hdl
        | @step u ω j o' k r' w₂ hu hp =>
            obtain ⟨ext, hext⟩ := trace_of_run h'
            simp only [List.length_append, List.length_singleton] at hdl
            have heq : c.trace ++ ((u, ⟨o', r'⟩) :: ext) = pre ++ (t, ⟨o, r⟩) :: post := by
              rw [← htr, hext]; simp
            obtain ⟨rfl, he⟩ := List.append_inj heq (by omega)
            obtain ⟨he, rfl⟩ := List.cons.inj he
            cases he
            exact ⟨[], ω, ms, c, j, k, w₂, rfl, rfl, rfl, hu, hp, h'⟩

/-- The moment of the event at a given place of the history. -/
theorem event_at (h : M.run c ms = some c') {q : Nat} {o : Op} {r : Res o}
    (hq : c'.trace[q]? = some (t, ⟨o, r⟩)) (hlen : c.trace.length ≤ q) :
    ∃ ms₁ ω ms₂ c₁ j k w₂, ms = ms₁ ++ .step t ω :: ms₂ ∧ M.run c ms₁ = some c₁ ∧
      c₁.trace = c'.trace.take q ∧ c₁.pool[t]? = some ⟨j, .perform o k⟩ ∧
      M.perform o ω c₁.world = some (r, w₂) ∧
      M.run ⟨w₂, c₁.pool.set t ⟨j, k r⟩, c'.trace.take q ++ [(t, ⟨o, r⟩)]⟩ ms₂ = some c' := by
  obtain ⟨hlt, he⟩ := List.getElem?_eq_some_iff.mp hq
  have hsplit : c'.trace = c'.trace.take q ++ (t, ⟨o, r⟩) :: c'.trace.drop (q + 1) := by
    rw [← he, ← List.drop_eq_getElem_cons hlt, List.take_append_drop]
  exact event_moment h hsplit (by simp only [List.length_take]; omega)

end Machine

/-! ## Embeddings -/

section Embedding

variable {World' Oracle' Act' : Type} (f : World → World') (g : Oracle → Oracle') (h : Act → Act')

/-- The same configuration over another world. -/
def Config.map (c : Config Res World Job Reply) : Config Res World' Job Reply :=
  ⟨f c.world, c.pool, c.trace⟩

/-- The same move, with other oracles and acts. -/
def Move.map : Move Job Oracle Act → Move Job Oracle' Act'
  | .spawn j => .spawn j
  | .step t ω => .step t (g ω)
  | .act a => .act (h a)

/-- `M'` does all that `M` does: the worlds, oracles and acts of `M` are some of its own. -/
structure Machine.Embeds (M : Machine Res World Job Reply Oracle Act)
    (M' : Machine Res World' Job Reply Oracle' Act') : Prop where
  code : M'.code = M.code
  perform : ∀ o ω w, M'.perform o (g ω) (f w) = (M.perform o ω w).map fun x ↦ (x.1, f x.2)
  act : ∀ a w, M'.act (h a) (f w) = (M.act a w).map f

namespace Machine.Embeds

variable {f g h} {M : Machine Res World Job Reply Oracle Act}
  {M' : Machine Res World' Job Reply Oracle' Act'} {c c' : Config Res World Job Reply}
  {ms : List (Move Job Oracle Act)}

theorem next (he : M.Embeds f g h M') (m : Move Job Oracle Act) :
    M'.next (c.map f) (m.map g h) = (M.next c m).map (Config.map f) := by
  cases m with
  | spawn j =>
      simp only [Move.map, Machine.next, he.code, Option.map_some]
      rfl
  | act a =>
      simp only [Move.map, Machine.next, Config.map, he.act, Option.map_map]
      rfl
  | step t ω =>
      simp only [Move.map, Machine.next, Config.map]
      split
      · simp only [he.perform, Option.map_map]
        rfl
      · rfl

/-- A run of `M` is a run of `M'`. -/
theorem run (he : M.Embeds f g h M') (hrun : M.run c ms = some c') :
    M'.run (c.map f) (ms.map (Move.map g h)) = some (c'.map f) := by
  induction ms generalizing c with
  | nil => exact congrArg (fun d ↦ some (Config.map f d)) (Option.some.inj hrun)
  | cons m ms ih =>
      obtain ⟨d, hd, hrest⟩ := run_cons.mp hrun
      exact run_cons.mpr ⟨d.map f, by rw [he.next, hd, Option.map_some], ih hrest⟩

theorem along (he : M.Embeds f g h M')
    {S : Config Res World' Job Reply → Move Job Oracle' Act' → Prop}
    (ha : M.Along (fun d m ↦ S (d.map f) (m.map g h)) c ms) :
    M'.Along S (c.map f) (ms.map (Move.map g h)) := by
  induction ms generalizing c with
  | nil => trivial
  | cons m ms ih =>
      refine ⟨ha.1, fun d' hd' ↦ ?_⟩
      rw [he.next] at hd'
      obtain ⟨d, hd, rfl⟩ := Option.map_eq_some_iff.mp hd'
      exact ih (ha.2 d hd)

end Machine.Embeds

end Embedding

/-- What happened before a place of the history. -/
theorem mem_take_iff {α : Type} {l : List α} {a : α} {q : Nat} :
    a ∈ l.take q ↔ ∃ i < q, l[i]? = some a := by
  rw [List.mem_iff_getElem?]
  simp only [List.getElem?_take]
  constructor
  · rintro ⟨i, hi⟩
    split at hi
    · exact ⟨i, ‹_›, hi⟩
    · exact nomatch hi
  · rintro ⟨i, hlt, hi⟩
    exact ⟨i, by rw [if_pos hlt, hi]⟩

end ZenthDht.Conc
