import ZenthDht.Conc.Program
import Mathlib.Data.List.Basic

/-!
# Two programs on one world

Two programs whose operations have one result in every world, `exec`.  `Interleaves` is every way
to run them together, with the log of the operations in the order they are executed, and
`Program.alone` is one program by itself; running two programs one after the other is
`alone` twice.

The rule of this file is `Interleaves.serial`: if every operation of one program commutes with
every operation of the other, any interleaving ends as the two programs do one after the other.
For programs that read first and write afterwards, `Interleaves.reads_first` says what is left:
both have read before either of them writes.
-/

namespace ZenthDht.Conc

variable {Op : Type} {Res : Op → Type} {World α β : Type}

/-- The two programs. -/
inductive Side
  | left
  | right
deriving DecidableEq

/-- The other one. -/
def Side.other : Side → Side
  | .left => .right
  | .right => .left

/-- The log with the two programs exchanged. -/
def mirror (tr : List (Side × Op)) : List (Side × Op) := tr.map fun e ↦ (e.1.other, e.2)

/-- Every operation of the program satisfies `Q`, whatever it receives. -/
def Program.Only (Q : Op → Prop) : Program Res α → Prop
  | .ret _ => True
  | .perform o k => Q o ∧ ∀ r, Only Q (k r)

theorem Program.Only.mono {Q Q' : Op → Prop} (hQ : ∀ o, Q o → Q' o) {p : Program Res α}
    (h : p.Only Q) : p.Only Q' := by
  induction p with
  | ret a => trivial
  | perform o k ih => exact ⟨hQ o h.1, fun r ↦ ih r (h.2 r)⟩

theorem Program.only_of_forall {Q : Op → Prop} (hQ : ∀ o, Q o) (p : Program Res α) : p.Only Q := by
  induction p with
  | ret a => trivial
  | perform o k ih => exact ⟨hQ o, ih⟩

theorem Program.Only.bind {Q : Op → Prop} {p : Program Res α} {f : α → Program Res β}
    (hp : p.Only Q) (hf : ∀ a, (f a).Only Q) : (p >>= f).Only Q := by
  induction p with
  | ret a => exact hf a
  | perform o k ih => exact ⟨hp.1, fun r ↦ ih r (hp.2 r)⟩

section

variable (exec : (o : Op) → World → Res o × World)

/-- What the program returns when it runs by itself, and the world it leaves. -/
def Program.alone : Program Res α → World → α × World
  | .ret a, w => (a, w)
  | .perform o k, w => alone (k (exec o w).1) (exec o w).2

/-- `p` and `q` together, from `w`, execute the operations `tr`, return `a` and `b` and leave
`w'`. -/
inductive Interleaves : Program Res α → Program Res β → World → List (Side × Op) → α → β →
    World → Prop
  | done {a : α} {b : β} {w : World} : Interleaves (.ret a) (.ret b) w [] a b w
  | left {o : Op} {k : Res o → Program Res α} {q : Program Res β} {w w' : World}
      {tr : List (Side × Op)} {a : α} {b : β} :
      Interleaves (k (exec o w).1) q (exec o w).2 tr a b w' →
      Interleaves (.perform o k) q w ((.left, o) :: tr) a b w'
  | right {o : Op} {p : Program Res α} {k : Res o → Program Res β} {w w' : World}
      {tr : List (Side × Op)} {a : α} {b : β} :
      Interleaves p (k (exec o w).1) (exec o w).2 tr a b w' →
      Interleaves p (.perform o k) w ((.right, o) :: tr) a b w'

/-- The interleaving of a schedule, computed. -/
def interleave : List Side → Program Res α → Program Res β → World →
    Option (List (Side × Op) × α × β × World)
  | [], .ret a, .ret b, w => some ([], a, b, w)
  | .left :: σ, .perform o k, q, w =>
    (interleave σ (k (exec o w).1) q (exec o w).2).map fun x ↦ ((.left, o) :: x.1, x.2)
  | .right :: σ, p, .perform o k, w =>
    (interleave σ p (k (exec o w).1) (exec o w).2).map fun x ↦ ((.right, o) :: x.1, x.2)
  | _, _, _, _ => none

/-- The two operations may be executed in either order. -/
structure Commutes (o o' : Op) : Prop where
  left : ∀ w, (exec o (exec o' w).2).1 = (exec o w).1
  right : ∀ w, (exec o' (exec o w).2).1 = (exec o' w).1
  world : ∀ w, (exec o (exec o' w).2).2 = (exec o' (exec o w).2).2

end

variable {exec : (o : Op) → World → Res o × World}
variable {p : Program Res α} {q : Program Res β} {w w' : World} {tr : List (Side × Op)}
  {a : α} {b : β}

theorem Commutes.symm {o o' : Op} (h : Commutes exec o o') : Commutes exec o' o :=
  ⟨h.right, h.left, fun w ↦ (h.world w).symm⟩

/-- Commuting programs commute in either order. -/
theorem Program.Only.swap (h : q.Only fun o ↦ p.Only fun o' ↦ Commutes exec o' o) :
    p.Only fun o ↦ q.Only fun o' ↦ Commutes exec o' o := by
  induction p with
  | ret a => trivial
  | perform o k ih =>
      exact ⟨h.mono fun _ ho ↦ ho.1.symm, fun r ↦ ih r (h.mono fun _ ho ↦ ho.2 r)⟩

theorem Interleaves.of_interleave {σ : List Side}
    (h : interleave exec σ p q w = some (tr, a, b, w')) : Interleaves exec p q w tr a b w' := by
  induction σ generalizing p q w tr with
  | nil =>
      cases p with
      | perform o k => exact nomatch h
      | ret a' =>
          cases q with
          | perform o k => exact nomatch h
          | ret b' =>
              cases Option.some.inj h
              exact .done
  | cons s σ ih =>
      cases s with
      | left =>
          cases p with
          | ret a' => exact nomatch h
          | perform o k =>
              simp only [interleave] at h
              obtain ⟨⟨tr', x⟩, hx, he⟩ := Option.map_eq_some_iff.mp h
              cases he
              exact .left (ih hx)
      | right =>
          cases q with
          | ret b' =>
              simp only [interleave] at h
              exact nomatch h
          | perform o k =>
              simp only [interleave] at h
              obtain ⟨⟨tr', x⟩, hx, he⟩ := Option.map_eq_some_iff.mp h
              cases he
              exact .right (ih hx)

theorem Interleaves.symm (h : Interleaves exec p q w tr a b w') :
    Interleaves exec q p w (mirror tr) b a w' := by
  induction h with
  | done => exact .done
  | left _ ih => exact .right ih
  | right _ ih => exact .left ih

/-- When the left program has returned, the right one runs alone. -/
theorem Interleaves.of_ret {a' : α} (h : Interleaves exec (.ret a') q w tr a b w') :
    a = a' ∧ q.alone exec w = (b, w') ∧ ∀ e ∈ tr, e.1 = .right := by
  generalize hp : Program.ret a' = p at h
  induction h with
  | done =>
      cases hp
      exact ⟨rfl, rfl, by simp⟩
  | left _ _ => exact nomatch hp
  | right _ ih =>
      obtain ⟨rfl, hq, htr⟩ := ih hp
      exact ⟨rfl, hq, by simpa using htr⟩

/-- An operation that commutes with a program may be executed before it or after it. -/
theorem Program.alone_commute {o : Op} (h : p.Only fun o' ↦ Commutes exec o' o) :
    p.alone exec (exec o w).2 = ((p.alone exec w).1, (exec o (p.alone exec w).2).2) ∧
      (exec o (p.alone exec w).2).1 = (exec o w).1 := by
  induction p generalizing w with
  | ret a => exact ⟨rfl, rfl⟩
  | perform o' k ih =>
      obtain ⟨hcomm, hrest⟩ := h
      obtain ⟨halone, hresult⟩ := @ih (exec o' w).1 (exec o' w).2 (hrest _)
      simp only [alone]
      rw [hcomm.left, hcomm.world]
      exact ⟨halone, hresult.trans (hcomm.right w)⟩

/-- **Commuting programs.**  Whatever the order of their operations, it ends as if the left
program had run first. -/
theorem Interleaves.serial (h : Interleaves exec p q w tr a b w')
    (hcomm : q.Only fun o ↦ p.Only fun o' ↦ Commutes exec o' o) :
    ∃ w₁, p.alone exec w = (a, w₁) ∧ q.alone exec w₁ = (b, w') := by
  induction h with
  | done => exact ⟨_, rfl, rfl⟩
  | left _ ih => exact ih (hcomm.mono fun o ho ↦ ho.2 _)
  | @right o p k w w' tr a b _ ih =>
      obtain ⟨w₁, hp, hq⟩ := ih (hcomm.2 _)
      obtain ⟨halone, hresult⟩ := Program.alone_commute (w := w) hcomm.1
      rw [halone] at hp
      obtain ⟨ha, rfl⟩ := Prod.mk.inj hp
      refine ⟨_, Prod.ext ha rfl, ?_⟩
      simp only [Program.alone, hresult]
      exact hq

/-! ## Read first, write afterwards -/

/-- Both programs have executed one operation before either of them has executed a second one,
and both go on to execute another. -/
def Overlap (tr : List (Side × Op)) : Prop :=
  ∃ s o o' tr', tr = (s, o) :: (s.other, o') :: tr' ∧ (∃ x, (Side.left, x) ∈ tr') ∧
    ∃ x, (Side.right, x) ∈ tr'

/-- The program makes at most one operation that does not commute with those of `q`. -/
def WritesOnce (exec : (o : Op) → World → Res o × World) (q : Program Res β) :
    Program Res α → Prop
  | .ret _ => True
  | .perform _ k => ∀ r, q.Only fun o ↦ (k r).Only fun o' ↦ Commutes exec o' o

/-- The two programs one after the other. -/
def InTurn (exec : (o : Op) → World → Res o × World) (p : Program Res α) (q : Program Res β)
    (w : World) (a : α) (b : β) (w' : World) : Prop :=
  ∃ w₁, p.alone exec w = (a, w₁) ∧ q.alone exec w₁ = (b, w')

/-- A program that has returned has run first. -/
theorem Interleaves.inTurn_of_ret {a' : α} (h : Interleaves exec (.ret a') q w tr a b w') :
    InTurn exec (.ret a') q w a b w' ∧ ∀ x, (Side.left, x) ∉ tr := by
  obtain ⟨rfl, hq, htr⟩ := h.of_ret
  refine ⟨⟨w, rfl, hq⟩, fun x hx ↦ ?_⟩
  have hside : Side.left = Side.right := htr _ hx
  exact nomatch hside

/-- If `p` writes before `q` reads, `p` has run first. -/
theorem Interleaves.write_first {o : Op} {k : Res o → Program Res β}
    (h : Interleaves exec p (.perform o k) w tr a b w') (hp : WritesOnce exec (.perform o k) p) :
    (InTurn exec p (.perform o k) w a b w' ∧
      ∀ o' tr', tr = (.right, o') :: tr' → ∀ x, (.left, x) ∉ tr') ∨
    ∃ tr', tr = (.right, o) :: tr' ∧ Interleaves exec p (k (exec o w).1) (exec o w).2 tr' a b w' := by
  cases p with
  | ret a' =>
      obtain ⟨hturn, hno⟩ := h.inTurn_of_ret
      exact .inl ⟨hturn, fun o' tr' he x hx ↦ hno x (he ▸ List.mem_cons_of_mem _ hx)⟩
  | perform o₁ k₁ =>
      cases h with
      | left h =>
          obtain ⟨w₁, hp₁, hq⟩ := h.serial (hp _)
          exact .inl ⟨⟨w₁, hp₁, hq⟩, fun o' tr' he ↦ nomatch he⟩
      | right h => exact .inr ⟨_, rfl, h⟩

@[simp] theorem mirror_mirror (tr : List (Side × Op)) : mirror (mirror tr) = tr := by
  have hother : ∀ s : Side, s.other.other = s := fun s ↦ by cases s <;> rfl
  simp [mirror, Function.comp_def, hother]

theorem mem_mirror {s : Side} {o : Op} : (s, o) ∈ mirror tr ↔ (s.other, o) ∈ tr := by
  induction tr with
  | nil => simp [mirror]
  | cons e tr ih =>
      obtain ⟨s', o'⟩ := e
      simp only [mirror, List.map_cons, List.mem_cons, Prod.mk.injEq] at ih ⊢
      rw [ih]
      cases s <;> cases s' <;> simp [Side.other]

theorem Interleaves.mem_left {o : Op} {k : Res o → Program Res α}
    (h : Interleaves exec (.perform o k) q w tr a b w') : (Side.left, o) ∈ tr := by
  generalize hp : Program.perform o k = p at h
  induction h with
  | done => exact nomatch hp
  | left _ _ =>
      cases hp
      exact List.mem_cons_self
  | right _ ih => exact List.mem_cons_of_mem _ (ih hp)

theorem Interleaves.mem_right {o : Op} {k : Res o → Program Res β}
    (h : Interleaves exec p (.perform o k) w tr a b w') : (Side.right, o) ∈ tr :=
  mem_mirror.mp h.symm.mem_left

/-- **Reading first.**  Two programs that begin with an operation that changes nothing, and then
make at most one operation that does not commute, end as if one of them had run first, or both
have read before either of them writes. -/
theorem Interleaves.reads_first {o o' : Op} {kp : Res o → Program Res α}
    {kq : Res o' → Program Res β}
    (h : Interleaves exec (.perform o kp) (.perform o' kq) w tr a b w')
    (ho : ∀ w, (exec o w).2 = w) (ho' : ∀ w, (exec o' w).2 = w)
    (hp : ∀ r, WritesOnce exec (.perform o' kq) (kp r))
    (hq : ∀ r, WritesOnce exec (.perform o kp) (kq r)) :
    (¬ Overlap tr ∧ (InTurn exec (.perform o kp) (.perform o' kq) w a b w' ∨
      InTurn exec (.perform o' kq) (.perform o kp) w b a w')) ∨
    ∃ tr', (Overlap tr ↔ (∃ x, (Side.left, x) ∈ tr') ∧ ∃ x, (Side.right, x) ∈ tr') ∧
      Interleaves exec (kp (exec o w).1) (kq (exec o' w).1) w tr' a b w' := by
  have hoverlap : ∀ {s o o'} {tr' : List (Side × Op)}, Overlap ((s, o) :: (s.other, o') :: tr') ↔
      (∃ x, (Side.left, x) ∈ tr') ∧ ∃ x, (Side.right, x) ∈ tr' := by
    intro s o o' tr'
    refine ⟨fun ⟨s', o₁, o₂, tr'', he, hx⟩ ↦ ?_, fun hx ↦ ⟨s, o, o', tr', rfl, hx⟩⟩
    obtain rfl := (List.cons.inj (List.cons.inj he).2).2
    exact hx
  cases h with
  | left h =>
      rw [ho] at h
      rcases h.write_first (hp _) with ⟨⟨w₁, hp₁, hq₁⟩, hno⟩ | ⟨tr', rfl, hread⟩
      · refine .inl ⟨?_, .inl ⟨w₁, ?_, hq₁⟩⟩
        · rintro ⟨s, o₁, o₂, tr', he, ⟨x, hx⟩, -⟩
          obtain ⟨he, rfl⟩ := List.cons.inj he
          cases he
          exact hno _ _ rfl x hx
        · simp only [Program.alone, ho]
          exact hp₁
      · rw [ho'] at hread
        exact .inr ⟨tr', hoverlap, hread⟩
  | right h =>
      rw [ho'] at h
      rcases h.symm.write_first (hq _) with ⟨⟨w₁, hq₁, hp₁⟩, hno⟩ | ⟨tr', he, hread⟩
      · refine .inl ⟨?_, .inr ⟨w₁, ?_, hp₁⟩⟩
        · rintro ⟨s, o₁, o₂, tr', he, -, x, hx⟩
          obtain ⟨he, rfl⟩ := List.cons.inj he
          cases he
          exact hno _ _ rfl x (mem_mirror.mpr hx)
        · simp only [Program.alone, ho']
          exact hq₁
      · rw [ho] at hread
        have htr := congrArg mirror he
        rw [mirror_mirror] at htr
        rw [htr]
        exact .inr ⟨mirror tr', hoverlap, hread.symm⟩

end ZenthDht.Conc
