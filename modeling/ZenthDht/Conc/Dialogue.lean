import ZenthDht.Conc.Program
import Mathlib.Data.List.Forall2

/-!
# Programs that answer what they read

Some of the events of a program are inputs that it has to answer, some are outputs.  A `Dialogue`
says which, and which output is an answer to which input when what lies between them is given.
`Owes` is the state of the dialogue: every input up to now has been followed by its answer before
the next one, but for the last input when that is still owed.

Nothing here knows what the operations mean.
-/

namespace ZenthDht.Conc

variable {Op : Type} {Res : Op → Type} {In Out α : Type}

/-- What a program reads, what it writes, and what counts as an answer: to an input, after the
events since. -/
structure Dialogue (Res : Op → Type) (In Out : Type) where
  input : Event Res → Option In
  output : Event Res → Option Out
  Answers : In → List (Event Res) → Out → Prop

namespace Dialogue

variable (D : Dialogue Res In Out)

/-- The event is neither an input nor an output. -/
def Quiet (e : Event Res) : Prop := D.input e = none ∧ D.output e = none

/-- What is owed after more events. -/
def since (es : List (Event Res)) (owed : Option (In × List (Event Res))) :
    Option (In × List (Event Res)) := owed.map fun p ↦ (p.1, p.2 ++ es)

/-- After `past` the program owes nothing, or the answer to an input and the events since. -/
inductive Owes : List (Event Res) → Option (In × List (Event Res)) → Prop
  | nil : Owes [] none
  | quiet {past : List (Event Res)} {owed : Option (In × List (Event Res))} {e : Event Res}
      (h : Owes past owed) (hq : D.Quiet e) : Owes (past ++ [e]) (since [e] owed)
  | read {past : List (Event Res)} {e : Event Res} {i : In} (h : Owes past none)
      (hi : D.input e = some i) (ho : D.output e = none) : Owes (past ++ [e]) (some (i, []))
  | write {past es : List (Event Res)} {e : Event Res} {i : In} {o : Out}
      (h : Owes past (some (i, es))) (hi : D.input e = none) (ho : D.output e = some o)
      (ha : D.Answers i es o) : Owes (past ++ [e]) none

/-- The outputs of `past` answer its inputs but for `rest`, in their order. -/
def InOrder (past : List (Event Res)) (rest : List In) : Prop :=
  ∃ answered, past.filterMap D.input = answered ++ rest ∧
    List.Forall₂ (fun i o ↦ ∃ es, es <:+: past ∧ D.Answers i es o) answered
      (past.filterMap D.output)

variable {D} {past past' : List (Event Res)} {owed : Option (In × List (Event Res))}

@[simp] theorem since_nil : since [] owed = owed := by
  cases owed with
  | none => rfl
  | some p => simp [since]

@[simp] theorem since_since (es es' : List (Event Res)) :
    since es' (since es owed) = since (es ++ es') owed := by
  cases owed with
  | none => rfl
  | some p => simp [since]

@[simp] theorem since_none (es : List (Event Res)) :
    since es (none : Option (In × List (Event Res))) = none := rfl

theorem Owes.quiets (h : D.Owes past owed) (hq : ∀ e ∈ past', D.Quiet e) :
    D.Owes (past ++ past') (since past' owed) := by
  induction past' generalizing past owed with
  | nil => simpa using h
  | cons e past' ih =>
      have hnext := ih (h.quiet (hq e List.mem_cons_self)) fun e he ↦
        hq e (List.mem_cons_of_mem _ he)
      simpa using hnext

/-- The events since the input come last. -/
theorem Owes.suffix (h : D.Owes past owed) : ∀ p ∈ owed, p.2 <:+ past := by
  induction h with
  | nil => exact fun _ hp ↦ nomatch hp
  | quiet h hq ih =>
      intro p hp
      obtain ⟨q, hq, rfl⟩ := Option.map_eq_some_iff.mp hp
      obtain ⟨pre, rfl⟩ := ih q hq
      exact ⟨pre, by rw [List.append_assoc]⟩
  | read h hi ho ih =>
      intro p hp
      obtain rfl := Option.some.inj hp
      exact List.nil_suffix
  | write h hi ho ha ih => exact fun _ hp ↦ nomatch hp

theorem InOrder.append {rest : List In} (h : D.InOrder past rest) {e : Event Res}
    (ho : D.output e = none) : D.InOrder (past ++ [e]) (rest ++ (D.input e).toList) := by
  obtain ⟨answered, hin, hout⟩ := h
  refine ⟨answered, ?_, ?_⟩
  · rw [List.filterMap_append, hin, List.append_assoc]
    cases hi : D.input e with
    | none => simp [hi]
    | some i => simp [hi]
  · rw [List.filterMap_append]
    simp only [List.filterMap_cons, ho, List.filterMap_nil, List.append_nil]
    exact hout.imp fun _ _ ⟨es, hes, ha⟩ ↦ ⟨es, hes.trans (List.prefix_append _ _).isInfix, ha⟩

/-- Who answers in turn answers in order. -/
theorem Owes.inOrder (h : D.Owes past owed) : D.InOrder past (owed.map Prod.fst).toList := by
  induction h with
  | nil => exact ⟨[], rfl, .nil⟩
  | @quiet past owed e h hq ih =>
      have hnext := ih.append hq.2
      rw [hq.1, Option.toList_none, List.append_nil] at hnext
      cases owed with
      | none => exact hnext
      | some p => exact hnext
  | read h hi ho ih =>
      have hnext := ih.append ho
      rwa [hi] at hnext
  | @write past es e i o h hi ho ha ih =>
      obtain ⟨answered, hin, hout⟩ := ih
      refine ⟨answered ++ [i], ?_, ?_⟩
      · rw [List.filterMap_append, hin]
        simp only [List.filterMap_cons, hi, List.filterMap_nil]
        rfl
      · rw [List.filterMap_append]
        simp only [List.filterMap_cons, ho, List.filterMap_nil]
        have hstretch {es : List (Event Res)} (hes : es <:+: past) : es <:+: past ++ [e] :=
          hes.trans (List.prefix_append _ _).isInfix
        refine List.rel_append (hout.imp fun _ _ ⟨es, hes, ha⟩ ↦ ⟨es, hstretch hes, ha⟩) ?_
        exact .cons ⟨es, hstretch (h.suffix _ rfl).isInfix, ha⟩ .nil

/-- The operations a program converses by: it reads when it owes nothing, and writes only what
answers the one input it owes. -/
def Guard (D : Dialogue Res In Out) (reads : Op → Prop) (writes : Op → Option Out)
    (past : List (Event Res)) (o : Op) : Prop :=
  (reads o → D.Owes past none) ∧
    ∀ m, writes o = some m → ∃ i es, D.Owes past (some (i, es)) ∧ D.Answers i es m

/-- **The dialogue rule.**  A program that converses by its guard owes at any time at most the
answer to the last input. -/
theorem owes_of_reaches {reads : Op → Prop} {writes : Op → Option Out}
    {post : List (Event Res) → α → Prop} {p q : Program Res α}
    (hin : ∀ e i, D.input e = some i → reads e.1 ∧ D.output e = none)
    (hout : ∀ e m, D.output e = some m → writes e.1 = some m)
    (hp : p.Obeys (D.Guard reads writes) post []) (hr : p.Reaches past q) :
    ∃ owed, D.Owes past owed := by
  induction hr with
  | refl => exact ⟨none, .nil⟩
  | @snoc past o k r hr ih =>
      obtain ⟨⟨hreads, hwrites⟩, -⟩ := hr.obeys hp
      cases hi : D.input ⟨o, r⟩ with
      | some i =>
          obtain ⟨ho, hno⟩ := hin _ i hi
          exact ⟨some (i, []), (hreads ho).read hi hno⟩
      | none =>
          cases hm : D.output ⟨o, r⟩ with
          | some m =>
              obtain ⟨i, es, howes, ha⟩ := hwrites m (hout _ m hm)
              exact ⟨none, howes.write hi hm ha⟩
          | none =>
              obtain ⟨owed, howes⟩ := ih
              exact ⟨_, howes.quiet ⟨hi, hm⟩⟩

end Dialogue

/-- The events that a program adds to its past are of the operations that the guard allows. -/
theorem Program.Obeys.adds {guard : List (Event Res) → Op → Prop}
    {post : List (Event Res) → α → Prop} {Q : Op → Prop} {past : List (Event Res)}
    {p : Program Res α} (h : p.Obeys guard post past) (hQ : ∀ past o, guard past o → Q o) :
    p.Obeys guard (fun past' a ↦ post past' a ∧
      ∃ es, past' = past ++ es ∧ ∀ e ∈ es, Q e.1) past := by
  induction p generalizing past with
  | ret a => exact ⟨h, [], (List.append_nil _).symm, fun _ he ↦ absurd he List.not_mem_nil⟩
  | perform o k ih =>
      refine ⟨h.1, fun r ↦ (ih r (h.2 r)).mono (fun _ _ hg ↦ hg) ?_⟩
      rintro past' a ⟨hp, es, rfl, hes⟩
      refine ⟨hp, ⟨o, r⟩ :: es, by simp, fun e he ↦ ?_⟩
      rcases List.mem_cons.mp he with rfl | he
      · exact hQ _ _ h.1
      · exact hes e he

end ZenthDht.Conc
