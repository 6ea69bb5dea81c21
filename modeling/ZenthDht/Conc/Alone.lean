import ZenthDht.Conc.Machine

/-!
# Programs that run alone

A thread runs alone in a part of a run in which no other thread is started or takes a step; the
environment still acts between its steps.  What such a program does is a matter of pre- and
postconditions: `Wp post p w` is what the world `w` must satisfy for every execution of `p` from
it to end in a world with `post`.

The environment is accounted for by `Drifts`.  An assertion that no act of the environment
invalidates is `Stable`; `wp_perform` is the rule for one operation from a stable assertion, and
`wp_bind` the rule for sequences.  `Machine.wp_of_run` applies `Wp` to a run.

`exec` computes one execution, from what the oracle decides, and `run_of_exec` makes it a run.
-/

namespace ZenthDht.Conc

variable {Op : Type} {Res : Op → Type} {World Job Reply Oracle Act α β : Type}

/-- The moves made while only thread `t` runs. -/
def Move.Alone (t : Nat) : Move Job Oracle Act → Prop
  | .spawn _ => False
  | .step u _ => u = t
  | .act _ => True

namespace Machine

variable {M : Machine Res World Job Reply Oracle Act}
variable {c c' : Config Res World Job Reply} {ms : List (Move Job Oracle Act)} {t : Nat}
variable {w w' : World} {post post' : α → World → Prop}

/-- What the environment can turn a world into. -/
inductive Drifts (M : Machine Res World Job Reply Oracle Act) (w : World) : World → Prop
  | refl : Drifts M w w
  | tail {w' w'' : World} {a : Act} (h : Drifts M w w') (ha : M.act a w' = some w'') :
      Drifts M w w''

/-- An assertion that the environment does not invalidate. -/
def Stable (M : Machine Res World Job Reply Oracle Act) (P : World → Prop) : Prop :=
  ∀ a w w', M.act a w = some w' → P w → P w'

theorem Stable.drifts {P : World → Prop} (hP : M.Stable P) (h : M.Drifts w w') (hw : P w) :
    P w' := by
  induction h with
  | refl => exact hw
  | tail _ ha ih => exact hP _ _ _ ha ih

/-- Every execution of the program alone, from `w`, ends in a value and a world with `post`. -/
def Wp (M : Machine Res World Job Reply Oracle Act) (post : α → World → Prop) :
    Program Res α → World → Prop
  | .ret a, w => post a w
  | .perform o k, w => ∀ w', M.Drifts w w' → ∀ ω r w'', M.perform o ω w' = some (r, w'') →
      Wp M post (k r) w''

@[simp] theorem wp_ret (a : α) : M.Wp post (.ret a) w ↔ post a w := Iff.rfl

theorem wp_bind {post : β → World → Prop} (p : Program Res α) (f : α → Program Res β) :
    M.Wp post (p >>= f) w ↔ M.Wp (fun a w ↦ M.Wp post (f a) w) p w := by
  induction p generalizing w with
  | ret a => exact Iff.rfl
  | perform o k ih =>
      constructor
      · intro h w' hd ω r w'' hp
        exact (ih r).mp (h w' hd ω r w'' hp)
      · intro h w' hd ω r w'' hp
        exact (ih r).mpr (h w' hd ω r w'' hp)

theorem Wp.mono {p : Program Res α} (h : M.Wp post p w) (hp : ∀ a w, post a w → post' a w) :
    M.Wp post' p w := by
  induction p generalizing w with
  | ret a => exact hp _ _ h
  | perform o k ih => exact fun w' hd ω r w'' hr ↦ ih r (h w' hd ω r w'' hr)

/-- One operation, from a stable assertion. -/
theorem wp_perform {P : World → Prop} (hP : M.Stable P) {o : Op} {k : Res o → Program Res α}
    (h : ∀ ω w r w', P w → M.perform o ω w = some (r, w') → M.Wp post (k r) w') (hw : P w) :
    M.Wp post (.perform o k) w :=
  fun w' hd ω r w'' hp ↦ h ω w' r w'' (hP.drifts hd hw) hp

/-- **Running alone.**  A thread whose program has the postcondition `post` ends in it, up to what
the environment does afterwards. -/
theorem wp_of_run {j : Job} {p : Program Res Reply} {post : Reply → World → Prop}
    (h : M.run c ms = some c') (halone : ∀ m ∈ ms, m.Alone t)
    (ht : c.pool[t]? = some ⟨j, p⟩) (hwp : M.Wp post p c.world) {a : Reply}
    (ha : c'.pool[t]? = some ⟨j, .ret a⟩) : ∃ w, post a w ∧ M.Drifts w c'.world := by
  -- a drift since the last step of the thread is carried along
  have hinv : ∃ q w, c'.pool[t]? = some ⟨j, q⟩ ∧ M.Wp post q w ∧ M.Drifts w c'.world := by
    refine Along.invariant (S := fun _ m ↦ m.Alone t)
      (I := fun d ↦ ∃ q w, d.pool[t]? = some ⟨j, q⟩ ∧ M.Wp post q w ∧ M.Drifts w d.world) ?_
      ?_ h ⟨p, c.world, ht, hwp, .refl⟩
    · rintro d m d' ⟨q, w, hq, hwp, hd⟩ hm hs
      cases hs with
      | spawn j' => exact absurd hm id
      | @step u ω j' o k r w' hu hp =>
          obtain rfl : u = t := hm
          obtain ⟨hlt, -⟩ := List.getElem?_eq_some_iff.mp hu
          rw [hu] at hq
          obtain ⟨rfl, rfl⟩ := Thread.mk.inj (Option.some.inj hq)
          exact ⟨k r, w', List.getElem?_set_self hlt, hwp _ hd ω r w' hp, .refl⟩
      | act ha => exact ⟨q, w, hq, hwp, hd.tail ha⟩
    · exact along_of_forall fun ms₁ m ms₂ _ hms _ ↦ halone m (by simp [hms])
  obtain ⟨q, w, hq, hwp, hd⟩ := hinv
  rw [ha] at hq
  obtain ⟨-, rfl⟩ := Thread.mk.inj (Option.some.inj hq)
  exact ⟨w, hwp, hd⟩

/-- The same for a request from its start. -/
theorem wp_of_spawn {j : Job} {post : Reply → World → Prop}
    (h : M.run c (.spawn j :: ms) = some c') (halone : ∀ m ∈ ms, m.Alone c.pool.length)
    (hwp : M.Wp post (M.code j) c.world) {a : Reply}
    (ha : c'.pool[c.pool.length]? = some ⟨j, .ret a⟩) : ∃ w, post a w ∧ M.Drifts w c'.world := by
  obtain ⟨d, hd, h⟩ := run_cons.mp h
  obtain rfl := Option.some.inj hd
  exact wp_of_run h halone (by simp) hwp ha

/-- The execution of the program alone from `w` in which the oracle decides `ωs`, one by one. -/
def exec (M : Machine Res World Job Reply Oracle Act) :
    Program Res α → List Oracle → World → Option (α × World)
  | .ret a, [], w => some (a, w)
  | .perform o k, ω :: ωs, w => (M.perform o ω w).bind fun (r, w') ↦ exec M (k r) ωs w'
  | _, _, _ => none

theorem exec_perform {o : Op} {k : Res o → Program Res α} {ω : Oracle} {ωs : List Oracle}
    (r : Res o) (w' : World) (hp : M.perform o ω w = some (r, w')) :
    M.exec (.perform o k) (ω :: ωs) w = M.exec (k r) ωs w' := by
  rw [exec, hp]
  rfl

/-- A function of the value does not change the execution. -/
theorem exec_map (f : α → β) {p : Program Res α} {ωs : List Oracle} {a : α}
    (h : M.exec p ωs w = some (a, w')) :
    M.exec (p >>= fun a ↦ .ret (f a)) ωs w = some (f a, w') := by
  induction p generalizing ωs w with
  | ret b =>
      cases ωs with
      | nil =>
          obtain ⟨rfl, rfl⟩ := Prod.mk.inj (Option.some.inj h)
          rfl
      | cons ω ωs => exact nomatch h
  | perform o k ih =>
      cases ωs with
      | nil => exact nomatch h
      | cons ω ωs =>
          obtain ⟨⟨r, w₁⟩, hp, hrest⟩ := Option.bind_eq_some_iff.mp h
          rw [Program.perform_bind, exec_perform _ _ hp]
          exact ih r hrest

/-- The steps of a thread that follow an execution of its program. -/
theorem run_of_exec {j : Job} {p : Program Res Reply} {ωs : List Oracle} {a : Reply}
    (ht : c.pool[t]? = some ⟨j, p⟩) (h : M.exec p ωs c.world = some (a, w)) :
    ∃ c', M.run c (ωs.map (.step t)) = some c' ∧ c'.pool[t]? = some ⟨j, .ret a⟩ ∧
      c'.world = w := by
  induction p generalizing c ωs with
  | ret b =>
      cases ωs with
      | nil =>
          obtain ⟨rfl, rfl⟩ := Prod.mk.inj (Option.some.inj h)
          exact ⟨c, rfl, ht, rfl⟩
      | cons ω ωs => exact nomatch h
  | perform o k ih =>
      cases ωs with
      | nil => exact nomatch h
      | cons ω ωs =>
          obtain ⟨⟨r, w₁⟩, hp, hrest⟩ := Option.bind_eq_some_iff.mp h
          obtain ⟨hlt, -⟩ := List.getElem?_eq_some_iff.mp ht
          have ht₁ : (c.pool.set t ⟨j, k r⟩)[t]? = some ⟨j, k r⟩ := List.getElem?_set_self hlt
          obtain ⟨c', hrun, hret, hw⟩ := ih r
            (c := ⟨w₁, c.pool.set t ⟨j, k r⟩, c.trace ++ [(t, ⟨o, r⟩)]⟩) ht₁ hrest
          exact ⟨c', run_cons.mpr ⟨_, next_step ht hp, hrun⟩, hret, hw⟩

end Machine

end ZenthDht.Conc
