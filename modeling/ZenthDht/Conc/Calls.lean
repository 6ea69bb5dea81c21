import ZenthDht.Conc.Machine

/-!
# Calls carried out by threads of their own

A program may run the code of a job to its end in the middle of its own.  Here a machine `N`
whose programs do that is refined by a machine `M` in which every such call is a thread of its
own beside the caller.  `Splits` relates a program of `N` to what is left of its call and of its
own thread in `M`; `Machine.simulates` makes of it a run of `M` for every run of `N`, over the
same world, with the same observed operations in the same order, each by a thread that belongs to
the one that performs it in `N`.
-/

namespace ZenthDht.Conc

variable {Op Op' : Type} {Res : Op → Type} {Res' : Op' → Type} {Obs : Type}
variable {World Job Job' Reply Reply' Oracle Oracle' Act : Type}

section

variable (M : Machine Res World Job Reply Oracle Act)
variable (N : Machine Res' World Job' Reply' Oracle' Act)
variable (obs : Event Res → Option Obs) (obs' : Event Res' → Option Obs)

/-! ## Operations -/

/-- Whatever the operation `o'` of `N` gives and does, the operation `o` of `M` gives and does. -/
structure ShowsAs (o' : Op') (o : Op) (res : Res' o' → Res o) : Prop where
  perform : ∀ {ω' w r' w₁}, N.perform o' ω' w = some (r', w₁) →
    ∃ ω, M.perform o ω w = some (res r', w₁)
  seen : ∀ r', obs ⟨o, res r'⟩ = obs' ⟨o', r'⟩

/-- The operation `o'` of `N` leaves the world alone and is not observed. -/
structure Unseen (o' : Op') : Prop where
  perform : ∀ {ω' w r' w₁}, N.perform o' ω' w = some (r', w₁) → w₁ = w
  seen : ∀ r', obs' ⟨o', r'⟩ = none

/-! ## Programs -/

/-- `Splits post p calls sub main`: of the program `p` of `N`, the calls `calls` have been made and
answered, what is left of the present call is `sub`, and what is left of the thread of `M` that
stands for the program itself is `main`.  When the program returns, `post` holds of its value and
its calls. -/
inductive Splits (post : Reply' → List (Job × Reply) → Prop) : Program Res' Reply' →
    List (Job × Reply) → Option (Job × Program Res Reply) → Option (Program Res Reply) → Prop
  | ret {a : Reply'} {calls : List (Job × Reply)} {main : Option (Program Res Reply)}
      (h : post a calls) : Splits post (.ret a) calls none main
  | silent {o' : Op'} {k' : Res' o' → Program Res' Reply'} {calls : List (Job × Reply)}
      {main : Option (Program Res Reply)} (ho : Unseen N obs' o')
      (hk : ∀ r', Splits post (k' r') calls none main) :
      Splits post (.perform o' k') calls none main
  | main {o' : Op'} {k' : Res' o' → Program Res' Reply'} {calls : List (Job × Reply)} {o : Op}
      {k : Res o → Program Res Reply} {res : Res' o' → Res o} (ho : ShowsAs M N obs obs' o' o res)
      (hk : ∀ r', Splits post (k' r') calls none (some (k (res r')))) :
      Splits post (.perform o' k') calls none (some (.perform o k))
  | sub {o' : Op'} {k' : Res' o' → Program Res' Reply'} {calls : List (Job × Reply)} {j : Job}
      {main : Option (Program Res Reply)} {o : Op} {k : Res o → Program Res Reply}
      {res : Res' o' → Res o} (ho : ShowsAs M N obs obs' o' o res)
      (hk : ∀ r', Splits post (k' r') calls (some (j, k (res r'))) main) :
      Splits post (.perform o' k') calls (some (j, .perform o k)) main
  | call {o' : Op'} {k' : Res' o' → Program Res' Reply'} {calls : List (Job × Reply)}
      {main : Option (Program Res Reply)} (j : Job)
      (h : Splits post (.perform o' k') calls (some (j, M.code j)) main) :
      Splits post (.perform o' k') calls none main
  | done {p : Program Res' Reply'} {calls : List (Job × Reply)} {j : Job} {b : Reply}
      {main : Option (Program Res Reply)} (h : Splits post p (calls ++ [(j, b)]) none main) :
      Splits post p calls (some (j, .ret b)) main

/-! ## Threads -/

/-- The threads of `M` that belong to thread `t` of `N`: `owner` names for each thread of `M` the
thread of `N` it belongs to, and whether it is the thread itself or a call of it. -/
structure Placed (c : Config Res World Job Reply) (owner : Nat → Nat × Bool) (t : Nat)
    (calls : List (Job × Reply)) (sub : Option (Job × Program Res Reply))
    (main : Option (Program Res Reply)) : Prop where
  calls : ∀ x ∈ calls, ∃ i, owner i = (t, false) ∧ c.pool[i]? = some ⟨x.1, .ret x.2⟩
  sub : ∀ j q, sub = some (j, q) → ∃ i, owner i = (t, false) ∧ c.pool[i]? = some ⟨j, q⟩
  main : ∀ q, main = some q → ∃ i j, owner i = (t, true) ∧ c.pool[i]? = some ⟨j, q⟩

/-- What is left of thread `t` of `N` is `p`, and `M` is as far. -/
def Attends (post : Reply' → List (Job × Reply) → Prop) (c : Config Res World Job Reply)
    (owner : Nat → Nat × Bool) (t : Nat) (p : Program Res' Reply') : Prop :=
  ∃ calls sub main, Splits M N obs obs' post p calls sub main ∧ Placed c owner t calls sub main

/-- What is observed of a history. -/
def observed {Op : Type} {Res : Op → Type} (obs : Event Res → Option Obs)
    (tr : List (Nat × Event Res)) : List Obs :=
  tr.filterMap fun e ↦ obs e.2

/-- What is observed of a history, and for whom. -/
def attributed {Op : Type} {Res : Op → Type} (owner : Nat → Nat) (obs : Event Res → Option Obs)
    (tr : List (Nat × Event Res)) : List (Nat × Obs) :=
  tr.filterMap fun e ↦ (obs e.2).map fun x ↦ (owner e.1, x)

/-- The configuration `c` of `M` stands for the configuration `c'` of `N`. -/
structure Matches (post : Job' → Reply' → List (Job × Reply) → Prop)
    (c : Config Res World Job Reply) (c' : Config Res' World Job' Reply')
    (owner : Nat → Nat × Bool) : Prop where
  world : c.world = c'.world
  seen : attributed (fun i ↦ (owner i).1) obs c.trace = attributed id obs' c'.trace
  threads : ∀ t th, c'.pool[t]? = some th → Attends M N obs obs' (post th.job) c owner t th.rest

end

section

variable {M : Machine Res World Job Reply Oracle Act}
variable {N : Machine Res' World Job' Reply' Oracle' Act}
variable {obs : Event Res → Option Obs} {obs' : Event Res' → Option Obs}
variable {post : Reply' → List (Job × Reply) → Prop} {c c₁ : Config Res World Job Reply}
variable {owner : Nat → Nat × Bool} {t t' : Nat} {calls : List (Job × Reply)}
variable {sub : Option (Job × Program Res Reply)} {main : Option (Program Res Reply)}

theorem observed_eq (owner : Nat → Nat) (tr : List (Nat × Event Res)) :
    observed obs tr = (attributed owner obs tr).map Prod.snd := by
  unfold observed attributed
  rw [List.map_filterMap]
  congr 1
  funext e
  cases obs e.2 <;> rfl

@[simp] theorem attributed_append (owner : Nat → Nat) (tr tr' : List (Nat × Event Res)) :
    attributed owner obs (tr ++ tr') = attributed owner obs tr ++ attributed owner obs tr' :=
  List.filterMap_append ..

@[simp] theorem attributed_singleton (owner : Nat → Nat) (t : Nat) (e : Event Res) :
    attributed owner obs [(t, e)] = (obs e).toList.map fun x ↦ (owner t, x) := by
  simp only [attributed, List.filterMap_cons, List.filterMap_nil]
  cases obs e <;> rfl

/-- Every event of the history is of a thread that has been started. -/
def Config.Started (c : Config Res World Job Reply) : Prop := ∀ e ∈ c.trace, e.1 < c.pool.length

theorem Config.Started.spawn (h : c.Started) {th : Thread Res Job Reply} :
    Config.Started { c with pool := c.pool ++ [th] } := fun e he ↦ by
  rw [List.length_append]
  exact Nat.lt_add_right _ (h e he)

/-- Whom a thread belongs to that has not been started is not seen. -/
theorem attributed_update (h : c.Started) (x : Nat × Bool) :
    attributed (fun i ↦ (Function.update owner c.pool.length x i).1) obs c.trace =
      attributed (fun i ↦ (owner i).1) obs c.trace :=
  List.filterMap_congr fun e he ↦ congrArg (fun y : Nat × Bool ↦ (obs e.2).map fun z ↦ (y.1, z))
    (Function.update_of_ne (Nat.ne_of_lt (h e he)) x owner)

/-! ## Frames -/

/-- Starting a thread takes nothing from the others, whoever it belongs to. -/
theorem Placed.spawn (h : Placed c owner t calls sub main) (th : Thread Res Job Reply)
    (x : Nat × Bool) :
    Placed { c with pool := c.pool ++ [th] } (Function.update owner c.pool.length x) t calls sub
      main := by
  have hkeep {i : Nat} {u : Thread Res Job Reply} {y : Nat × Bool} (ho : owner i = y)
      (hi : c.pool[i]? = some u) : Function.update owner c.pool.length x i = y ∧
        (c.pool ++ [th])[i]? = some u := by
    obtain ⟨hlt, -⟩ := List.getElem?_eq_some_iff.mp hi
    exact ⟨by rw [Function.update_of_ne (Nat.ne_of_lt hlt), ho],
      by rw [List.getElem?_append_left hlt, hi]⟩
  constructor
  · intro y hy
    obtain ⟨i, ho, hi⟩ := h.calls y hy
    exact ⟨i, hkeep ho hi⟩
  · intro j q hq
    obtain ⟨i, ho, hi⟩ := h.sub j q hq
    exact ⟨i, hkeep ho hi⟩
  · intro q hq
    obtain ⟨i, j, ho, hi⟩ := h.main q hq
    exact ⟨i, j, hkeep ho hi⟩

/-- A step of a thread of another owner takes nothing away. -/
theorem Placed.set (h : Placed c owner t' calls sub main) {i : Nat} {x : Bool}
    (ho : owner i = (t, x)) (hne : t' ≠ t) (th : Thread Res Job Reply) (w : World)
    (tr : List (Nat × Event Res)) : Placed ⟨w, c.pool.set i th, tr⟩ owner t' calls sub main := by
  have hkeep {n : Nat} {y : Bool} {u : Thread Res Job Reply} (hn : owner n = (t', y))
      (hu : c.pool[n]? = some u) : (c.pool.set i th)[n]? = some u := by
    have hin : i ≠ n := by
      rintro rfl
      exact hne (Prod.mk.inj (hn.symm.trans ho)).1
    rw [List.getElem?_set_ne hin, hu]
  constructor
  · intro y hy
    obtain ⟨n, hn, hu⟩ := h.calls y hy
    exact ⟨n, hn, hkeep hn hu⟩
  · intro j q hq
    obtain ⟨n, hn, hu⟩ := h.sub j q hq
    exact ⟨n, hn, hkeep hn hu⟩
  · intro q hq
    obtain ⟨n, j, hn, hu⟩ := h.main q hq
    exact ⟨n, j, hn, hkeep hn hu⟩

/-- A step of a thread of the caller itself leaves the answered calls where they are. -/
theorem Placed.answered (h : Placed c owner t calls sub main) {i : Nat} {j : Job} {o : Op}
    {k : Res o → Program Res Reply} (hi : c.pool[i]? = some ⟨j, .perform o k⟩)
    (th : Thread Res Job Reply) {x : Job × Reply} (hx : x ∈ calls) :
    ∃ n, owner n = (t, false) ∧ (c.pool.set i th)[n]? = some ⟨x.1, .ret x.2⟩ := by
  obtain ⟨n, hn, hu⟩ := h.calls x hx
  have hin : i ≠ n := by
    rintro rfl
    rw [hu] at hi
    cases hi
  exact ⟨n, hn, by rw [List.getElem?_set_ne hin, hu]⟩

/-! ## Steps -/

/-- What a step of `N` by thread `t` is in `M`. -/
structure StepsAs (M : Machine Res World Job Reply Oracle Act)
    (N : Machine Res' World Job' Reply' Oracle' Act) (obs : Event Res → Option Obs)
    (obs' : Event Res' → Option Obs) (post : Reply' → List (Job × Reply) → Prop)
    (c : Config Res World Job Reply) (owner : Nat → Nat × Bool) (t : Nat) (e : Event Res')
    (p : Program Res' Reply') (w : World) (c₁ : Config Res World Job Reply)
    (owner₁ : Nat → Nat × Bool) : Prop where
  run : ∃ ms, M.run c ms = some c₁
  world : c₁.world = w
  seen : attributed (fun i ↦ (owner₁ i).1) obs c₁.trace =
    attributed (fun i ↦ (owner i).1) obs c.trace ++ (obs' e).toList.map fun x ↦ (t, x)
  attends : Attends M N obs obs' post c₁ owner₁ t p
  others : ∀ t', t' ≠ t → ∀ calls sub main, Placed c owner t' calls sub main →
    Placed c₁ owner₁ t' calls sub main

theorem Splits.step {p : Program Res' Reply'} (h : Splits M N obs obs' post p calls sub main)
    {o' : Op'} {k' : Res' o' → Program Res' Reply'} (heq : p = .perform o' k') {ω' : Oracle'}
    {r' : Res' o'} {w₁ : World} (hp : N.perform o' ω' c.world = some (r', w₁))
    (hc : Placed c owner t calls sub main) (hstarted : c.Started) :
    ∃ c₁ owner₁, StepsAs M N obs obs' post c owner t ⟨o', r'⟩ (k' r') w₁ c₁ owner₁ := by
  induction h generalizing c owner with
  | ret h => cases heq
  | silent ho hk ih =>
      cases heq
      refine ⟨c, owner, ⟨⟨[], rfl⟩, (ho.perform hp).symm, ?_, ⟨_, _, _, hk r', hc⟩,
        fun _ _ _ _ _ h ↦ h⟩⟩
      rw [ho.seen]
      exact (List.append_nil _).symm
  | @main _ _ calls o k res ho hk ih =>
      cases heq
      obtain ⟨i, j, hi, ht⟩ := hc.main _ rfl
      obtain ⟨ω, hω⟩ := ho.perform hp
      obtain ⟨hlt, -⟩ := List.getElem?_eq_some_iff.mp ht
      refine ⟨_, owner, ⟨⟨[.step i ω], (Machine.Step.step ht hω).run_cons rfl⟩, rfl, ?_,
        ⟨calls, none, _, hk r', ?_⟩, fun t' hne _ _ _ h ↦ h.set hi hne _ _ _⟩⟩
      · rw [attributed_append, attributed_singleton, ho.seen, hi]
      · constructor
        · intro x hx
          exact hc.answered ht _ hx
        · rintro _ _ ⟨⟩
        · rintro _ ⟨⟩
          exact ⟨i, j, hi, List.getElem?_set_self hlt⟩
  | @sub _ _ calls j main o k res ho hk ih =>
      cases heq
      obtain ⟨i, hi, ht⟩ := hc.sub _ _ rfl
      obtain ⟨ω, hω⟩ := ho.perform hp
      obtain ⟨hlt, -⟩ := List.getElem?_eq_some_iff.mp ht
      refine ⟨_, owner, ⟨⟨[.step i ω], (Machine.Step.step ht hω).run_cons rfl⟩, rfl, ?_,
        ⟨calls, some (j, k (res r')), main, hk r', ?_⟩, fun t' hne _ _ _ h ↦ h.set hi hne _ _ _⟩⟩
      · rw [attributed_append, attributed_singleton, ho.seen, hi]
      · constructor
        · intro x hx
          exact hc.answered ht _ hx
        · rintro _ _ ⟨⟩
          exact ⟨i, hi, List.getElem?_set_self hlt⟩
        · intro q hq
          obtain ⟨n, j', hn, hu⟩ := hc.main q hq
          have hin : i ≠ n := by
            rintro rfl
            cases hn.symm.trans hi
          exact ⟨n, j', hn, by rw [List.getElem?_set_ne hin, hu]⟩
  | @call _ _ calls main j h ih =>
      -- the call is started, and takes the step
      have hspawn := hc.spawn ⟨j, M.code j⟩ (t, false)
      obtain ⟨c₁, owner₁, hf⟩ := ih heq
        (c := { c with pool := c.pool ++ [⟨j, M.code j⟩] }) hp
        { hspawn with
          sub := by
            rintro _ _ ⟨⟩
            exact ⟨c.pool.length, Function.update_self .., List.getElem?_concat_length⟩ }
        hstarted.spawn
      obtain ⟨ms, hms⟩ := hf.run
      refine ⟨c₁, owner₁, ⟨⟨.spawn j :: ms, (Machine.Step.spawn j).run_cons hms⟩, hf.world, ?_,
        hf.attends, fun t' hne _ _ _ h ↦ hf.others t' hne _ _ _ (h.spawn _ _)⟩⟩
      rw [hf.seen, attributed_update hstarted]
  | @done p calls j b main h ih =>
      obtain ⟨i, hi, ht⟩ := hc.sub _ _ rfl
      refine ih heq hp ?_ hstarted
      constructor
      · intro x hx
        rcases List.mem_append.mp hx with hx | hx
        · exact hc.calls x hx
        · obtain rfl := List.mem_singleton.mp hx
          exact ⟨i, hi, ht⟩
      · rintro _ _ ⟨⟩
      · exact hc.main

/-- A program that has returned has made its calls. -/
theorem Attends.answered {a : Reply'} (h : Attends M N obs obs' post c owner t (.ret a)) :
    ∃ calls, post a calls ∧
      ∀ x ∈ calls, ∃ i, owner i = (t, false) ∧ c.pool[i]? = some ⟨x.1, .ret x.2⟩ := by
  obtain ⟨calls, sub, main, hsplit, hc⟩ := h
  generalize hp : (Program.ret a : Program Res' Reply') = p at hsplit
  induction hsplit with
  | ret h =>
      cases hp
      exact ⟨_, h, hc.calls⟩
  | @done p calls j b main h ih =>
      obtain ⟨i, hi, ht⟩ := hc.sub _ _ rfl
      refine ih ?_ hp
      constructor
      · intro x hx
        rcases List.mem_append.mp hx with hx | hx
        · exact hc.calls x hx
        · obtain rfl := List.mem_singleton.mp hx
          exact ⟨i, hi, ht⟩
      · rintro _ _ ⟨⟩
      · exact hc.main
  | _ => cases hp

/-! ## Runs -/

section

variable {post : Job' → Reply' → List (Job × Reply) → Prop} {main : Job' → Option Job}
variable {c' c₁' : Config Res' World Job' Reply'} {m : Move Job' Oracle' Act}
variable {ms' : List (Move Job' Oracle' Act)} {w : World}

/-- What a job of `N` starts as: its own thread in `M`, if it has one, and no call. -/
def Machine.SplitsCode (M : Machine Res World Job Reply Oracle Act)
    (N : Machine Res' World Job' Reply' Oracle' Act) (obs : Event Res → Option Obs)
    (obs' : Event Res' → Option Obs) (post : Job' → Reply' → List (Job × Reply) → Prop)
    (main : Job' → Option Job) : Prop :=
  ∀ j, Splits M N obs obs' (post j) (N.code j) [] none ((main j).map M.code)

/-- What a move of `N` is in `M`. -/
theorem Matches.step (hcode : M.SplitsCode N obs obs' post main) (hact : N.act = M.act)
    (h : Matches M N obs obs' post c c' owner) (hstarted : c.Started) (hs : N.Step c' m c₁') :
    ∃ ms c₁ owner₁, M.run c ms = some c₁ ∧ Matches M N obs obs' post c₁ c₁' owner₁ := by
  cases hs with
  | @act a w ha =>
      rw [hact, ← h.world] at ha
      refine ⟨_, { c with world := w }, owner, (Machine.Step.act ha).run_cons Machine.run_nil,
        ⟨rfl, h.seen, fun t th ht ↦ ?_⟩⟩
      obtain ⟨calls, sub, main, hsplit, hc⟩ := h.threads t th ht
      exact ⟨calls, sub, main, hsplit, hc.calls, hc.sub, hc.main⟩
  | spawn j =>
      -- the frame for the threads that are there already, and the new one
      have hnew (t : Nat) (th : Thread Res' Job' Reply')
          (ht : (c'.pool ++ [⟨j, N.code j⟩])[t]? = some th) :
          c'.pool[t]? = some th ∨ t = c'.pool.length ∧ th = ⟨j, N.code j⟩ := by
        rw [List.getElem?_append] at ht
        split at ht
        · exact .inl ht
        next hle =>
          obtain ⟨hlt, rfl⟩ := List.getElem?_eq_some_iff.mp ht
          simp only [List.length_singleton] at hlt
          exact .inr ⟨by omega, by simp⟩
      cases hmain : main j with
      | none =>
          refine ⟨[], c, owner, rfl, ⟨h.world, h.seen, fun t th ht ↦ ?_⟩⟩
          rcases hnew t th ht with ht | ⟨rfl, rfl⟩
          · exact h.threads t th ht
          · have hsplit := hcode j
            rw [hmain] at hsplit
            refine ⟨[], none, none, hsplit, ?_⟩
            constructor
            · intro x hx
              cases hx
            · rintro _ _ ⟨⟩
            · rintro _ ⟨⟩
      | some j₀ =>
          refine ⟨_, { c with pool := c.pool ++ [⟨j₀, M.code j₀⟩] },
            Function.update owner c.pool.length (c'.pool.length, true),
            (Machine.Step.spawn j₀).run_cons Machine.run_nil,
            ⟨h.world, (attributed_update hstarted _).trans h.seen, fun t th ht ↦ ?_⟩⟩
          rcases hnew t th ht with ht | ⟨rfl, rfl⟩
          · obtain ⟨calls, sub, main, hsplit, hc⟩ := h.threads t th ht
            exact ⟨calls, sub, main, hsplit, hc.spawn _ _⟩
          · have hsplit := hcode j
            rw [hmain] at hsplit
            refine ⟨[], none, _, hsplit, ?_⟩
            constructor
            · intro x hx
              cases hx
            · rintro _ _ ⟨⟩
            · rintro _ ⟨⟩
              exact ⟨c.pool.length, j₀, Function.update_self .., List.getElem?_concat_length⟩
  | @step t ω' j o' k' r' w₁ ht hp =>
      obtain ⟨hlt, -⟩ := List.getElem?_eq_some_iff.mp ht
      obtain ⟨calls, sub, main, hsplit, hc⟩ := h.threads t _ ht
      rw [← h.world] at hp
      obtain ⟨c₁, owner₁, hf⟩ := hsplit.step rfl hp hc hstarted
      obtain ⟨ms, hms⟩ := hf.run
      refine ⟨ms, c₁, owner₁, hms, ⟨hf.world, ?_, fun t' th ht' ↦ ?_⟩⟩
      · rw [hf.seen, attributed_append, attributed_singleton, h.seen]
        rfl
      · by_cases e : t = t'
        · subst e
          rw [List.getElem?_set_self hlt] at ht'
          cases ht'
          exact hf.attends
        · rw [List.getElem?_set_ne e] at ht'
          obtain ⟨calls, sub, main, hsplit, hc⟩ := h.threads t' th ht'
          exact ⟨calls, sub, main, hsplit, hf.others t' (Ne.symm e) _ _ _ hc⟩

/-- Both have made the same observations. -/
theorem Matches.observed (h : Matches M N obs obs' post c c' owner) :
    Conc.observed obs c.trace = Conc.observed obs' c'.trace := by
  rw [observed_eq, h.seen, ← observed_eq]

/-- **The call rule.**  For every run of `N` there is a run of `M` over the same world, in which
the calls are threads. -/
theorem Machine.simulates (hcode : M.SplitsCode N obs obs' post main) (hact : N.act = M.act)
    (h : N.run (.start w) ms' = some c') :
    ∃ ms c owner, M.run (.start w) ms = some c ∧ Matches M N obs obs' post c c' owner := by
  refine Machine.run_invariant (I := fun c' ↦ ∃ ms c owner, M.run (.start w) ms = some c ∧
    Matches M N obs obs' post c c' owner) ?_ h ?_
  · rintro c' m c₁' ⟨ms, c, owner, hrun, hmatch⟩ hs
    have hstarted : c.Started := fun e he ↦
      let ⟨_, hth⟩ := Machine.pool_of_mem hrun he
      (List.getElem?_eq_some_iff.mp hth).1
    obtain ⟨ms₁, c₁, owner₁, hrun₁, hmatch₁⟩ := hmatch.step hcode hact hstarted hs
    exact ⟨ms ++ ms₁, c₁, owner₁, Machine.run_append.mpr ⟨c, hrun, hrun₁⟩, hmatch₁⟩
  · refine ⟨[], .start w, fun _ ↦ (0, false), rfl, ⟨rfl, rfl, ?_⟩⟩
    intro t th ht
    cases ht

end

end

end ZenthDht.Conc
