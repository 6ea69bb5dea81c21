import Mathlib.Logic.Basic

/-!
# Programs over a signature of effects

A `Program Res α` is a finite tree of effects: it either returns a value or
performs an operation `o` and continues according to the result of type `Res o`.
A handler written with `do` is such a tree, so what it may do next is a function
of the results it has received so far, and of nothing else.

The list of the results received so far is the *past* of the program.  `Obeys` is
the one notion of correctness used on programs: every operation is performed only
after a past that the guard allows, and every value is returned only after a past
that the postcondition allows.  `Reaches` says which continuation a past leads to;
`Reaches.obeys` transports a guard along it.

Nothing here knows what the operations mean.
-/

namespace ZenthDht.Conc

/-- A terminating program whose effects are the operations `Op` with results `Res`. -/
inductive Program {Op : Type} (Res : Op → Type) (α : Type) : Type
  | ret (a : α)
  | perform (o : Op) (k : Res o → Program Res α)

/-- An operation together with the result it gave. -/
abbrev Event {Op : Type} (Res : Op → Type) : Type := Σ o : Op, Res o

variable {Op : Type} {Res : Op → Type} {α β : Type}

namespace Program

/-- Run `p`, then continue with the value it returns. -/
def bind : Program Res α → (α → Program Res β) → Program Res β
  | ret a, f => f a
  | perform o k, f => perform o fun r ↦ bind (k r) f

instance instMonad : Monad (Program Res) where
  pure := ret
  bind := bind

/-- Perform one operation and return its result. -/
def call (o : Op) : Program Res (Res o) := perform o ret

@[simp] theorem pure_eq (a : α) : (pure a : Program Res α) = ret a := rfl

@[simp] theorem ret_bind (a : α) (f : α → Program Res β) : (ret a >>= f) = f a := rfl

@[simp] theorem perform_bind (o : Op) (k : Res o → Program Res α) (f : α → Program Res β) :
    (perform o k >>= f) = perform o fun r ↦ k r >>= f := rfl

@[simp] theorem call_bind (o : Op) (f : Res o → Program Res β) :
    (call o >>= f) = perform o f := rfl

theorem bind_assoc {γ : Type} (p : Program Res α) (f : α → Program Res β)
    (g : β → Program Res γ) : (p >>= f >>= g) = (p >>= fun a ↦ f a >>= g) := by
  induction p with
  | ret a => rfl
  | perform o k ih => exact congrArg (perform o) (funext fun r ↦ ih r)

/-! ## Guards -/

/-- `Obeys guard post past p`: started after `past`, the program `p` performs an
operation only when `guard` allows it after what has happened by then, and returns
a value only when `post` allows that. -/
def Obeys (guard : List (Event Res) → Op → Prop) (post : List (Event Res) → α → Prop) :
    List (Event Res) → Program Res α → Prop
  | past, ret a => post past a
  | past, perform o k => guard past o ∧ ∀ r, Obeys guard post (past ++ [⟨o, r⟩]) (k r)

variable {guard guard' : List (Event Res) → Op → Prop} {post post' : List (Event Res) → α → Prop}
variable {past : List (Event Res)}

@[simp] theorem obeys_ret (a : α) : Obeys guard post past (ret a) ↔ post past a := Iff.rfl

@[simp] theorem obeys_perform (o : Op) (k : Res o → Program Res α) :
    Obeys guard post past (perform o k) ↔
      guard past o ∧ ∀ r, Obeys guard post (past ++ [⟨o, r⟩]) (k r) := Iff.rfl

/-- Sequencing: the postcondition of the first program is that the second one obeys. -/
theorem obeys_bind {post : List (Event Res) → β → Prop} (p : Program Res α)
    (f : α → Program Res β) :
    Obeys guard post past (p >>= f) ↔
      Obeys guard (fun past a ↦ Obeys guard post past (f a)) past p := by
  induction p generalizing past with
  | ret a => exact Iff.rfl
  | perform o k ih => exact and_congr_right fun _ ↦ forall_congr' fun r ↦ ih r

/-- A guard that allows everything is obeyed. -/
theorem obeys_of_forall (p : Program Res α) (hg : ∀ past o, guard past o)
    (hp : ∀ past a, post past a) : Obeys guard post past p := by
  induction p generalizing past with
  | ret a => exact hp _ _
  | perform o k ih => exact ⟨hg _ _, fun r ↦ ih r⟩

/-- Weaken the guard and the postcondition. -/
theorem Obeys.mono {p : Program Res α} (h : Obeys guard post past p)
    (hg : ∀ past o, guard past o → guard' past o)
    (hp : ∀ past a, post past a → post' past a) : Obeys guard' post' past p := by
  induction p generalizing past with
  | ret a => exact hp _ _ h
  | perform o k ih => exact ⟨hg _ _ h.1, fun r ↦ ih r (h.2 r)⟩

/-- The sequencing rule, with a postcondition for the first program. -/
theorem Obeys.bind {post' : List (Event Res) → β → Prop} {p : Program Res α}
    {f : α → Program Res β} (h : Obeys guard post past p)
    (hf : ∀ past a, post past a → Obeys guard post' past (f a)) : Obeys guard post' past (p >>= f) :=
  (obeys_bind p f).mpr (h.mono (fun _ _ hg ↦ hg) hf)

/-- The rest of a program that obeys whatever the value is. -/
theorem Obeys.bind_any {post : List (Event Res) → β → Prop} {p : Program Res α}
    {f : α → Program Res β} (h : Obeys guard (fun _ _ ↦ True) past p)
    (hf : ∀ past a, Obeys guard post past (f a)) : Obeys guard post past (p >>= f) :=
  h.bind fun past a _ ↦ hf past a

/-- A program never forgets: what has happened before it has happened after it. -/
theorem Obeys.grows {p : Program Res α} (h : Obeys guard post past p) :
    Obeys guard (fun past' a ↦ post past' a ∧ ∀ e ∈ past, e ∈ past') past p := by
  induction p generalizing past with
  | ret a => exact ⟨h, fun _ he ↦ he⟩
  | perform o k ih =>
      refine ⟨h.1, fun r ↦ (ih r (h.2 r)).mono (fun _ _ hg ↦ hg) fun past' a hp ↦ ?_⟩
      exact ⟨hp.1, fun e he ↦ hp.2 e (List.mem_append_left _ he)⟩

/-- What happens after a past extends it. -/
theorem obeys_extends (p : Program Res α) :
    Obeys (fun past' _ ↦ past <+: past') (fun past' _ ↦ past <+: past') past p := by
  induction p generalizing past with
  | ret a => exact List.prefix_rfl
  | perform o k ih =>
      have hfront (e : Event Res) {past' : List (Event Res)} (h : past ++ [e] <+: past') :
          past <+: past' := (List.prefix_append _ _).trans h
      exact ⟨List.prefix_rfl, fun r ↦ (ih r).mono (fun _ _ h ↦ hfront _ h) fun _ _ h ↦ hfront _ h⟩

/-- A program that performs only operations with the property `Q` adds only such operations to
its past. -/
theorem Obeys.only {Q : Op → Prop} {p : Program Res α} (h : Obeys guard post past p)
    (hQ : ∀ past o, guard past o → Q o) :
    Obeys guard (fun past' a ↦ post past' a ∧ ∀ e ∈ past', e ∈ past ∨ Q e.1) past p := by
  induction p generalizing past with
  | ret a => exact ⟨h, fun _ he ↦ .inl he⟩
  | perform o k ih =>
      refine ⟨h.1, fun r ↦ (ih r (h.2 r)).mono (fun _ _ hg ↦ hg) fun past' a hp ↦ ?_⟩
      refine ⟨hp.1, fun e he ↦ ?_⟩
      rcases hp.2 e he with he | hq
      · rcases List.mem_append.mp he with he | he
        · exact .inl he
        · obtain rfl := List.mem_singleton.mp he
          exact .inr (hQ _ _ h.1)
      · exact .inr hq

/-- Two guards obeyed separately are obeyed together. -/
theorem Obeys.and {p : Program Res α} (h : Obeys guard post past p)
    (h' : Obeys guard' post' past p) :
    Obeys (fun past o ↦ guard past o ∧ guard' past o)
      (fun past a ↦ post past a ∧ post' past a) past p := by
  induction p generalizing past with
  | ret a => exact ⟨h, h'⟩
  | perform o k ih => exact ⟨⟨h.1, h'.1⟩, fun r ↦ ih r (h.2 r) (h'.2 r)⟩

/-! ## Residuals -/

/-- `Reaches p past q`: having received the results `past`, the program `p` has
become `q`. -/
inductive Reaches (p : Program Res α) : List (Event Res) → Program Res α → Prop
  | refl : Reaches p [] p
  | snoc {past : List (Event Res)} {o : Op} {k : Res o → Program Res α} (r : Res o) :
      Reaches p past (perform o k) → Reaches p (past ++ [⟨o, r⟩]) (k r)

/-- What a program obeys from the start, its residuals obey from where they are. -/
theorem Reaches.obeys {p q : Program Res α} (h : Reaches p past q)
    (hp : Obeys guard post [] p) : Obeys guard post past q := by
  induction h with
  | refl => exact hp
  | snoc r _ ih => exact ih.2 r

end Program

end ZenthDht.Conc
