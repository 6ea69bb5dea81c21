import ZenthDht.Conc.Machine

/-!
# Runs without some of their jobs

`removeJobs gone` takes the moves of a run to those of the run in which the jobs of `gone` are
never started.  The other threads keep their order, so each gets the number of kept threads
before it, its `rank`.

If no step of a removed thread changes the world, what is left is a run as well, and every
other thread has the same history in it and is at the same place (`run_removeJobs`).  Two runs
from which the same moves are left agree on what their threads have seen (`Removed.agree`).
-/

namespace ZenthDht.Conc

/-! ## Places in a filtered list -/

section

variable {α : Type} {p : α → Bool} {l : List α} {t t' : Nat} {x y : α}

theorem getElem?_filter_of_getElem? (h : l[t]? = some x) (hx : p x = true) :
    (l.filter p)[(l.take t).countP p]? = some x := by
  induction l generalizing t with
  | nil => exact nomatch h
  | cons z l ih =>
      cases t with
      | zero =>
          obtain rfl := Option.some.inj h
          simp [hx]
      | succ t =>
          have hrest := ih h
          by_cases hz : p z = true <;> simp [hz, hrest]

theorem filter_set_of_kept (h : l[t]? = some x) (hx : p x = true) (hy : p y = true) :
    (l.set t y).filter p = (l.filter p).set ((l.take t).countP p) y := by
  induction l generalizing t with
  | nil => exact nomatch h
  | cons z l ih =>
      cases t with
      | zero =>
          obtain rfl := Option.some.inj h
          simp [hx, hy]
      | succ t =>
          have hrest := ih h
          by_cases hz : p z = true <;> simp [hz, hrest]

theorem filter_set_of_gone (h : l[t]? = some x) (hx : p x = false) (hy : p y = false) :
    (l.set t y).filter p = l.filter p := by
  induction l generalizing t with
  | nil => exact nomatch h
  | cons z l ih =>
      cases t with
      | zero =>
          obtain rfl := Option.some.inj h
          simp [hx, hy]
      | succ t => simp only [List.set_cons_succ, List.filter_cons, ih h]

/-- What is kept has a place of its own. -/
theorem countP_take_lt (h : l[t]? = some x) (hx : p x = true) (hlt : t < t') :
    (l.take t).countP p < (l.take t').countP p := by
  have hnext : (l.take (t + 1)).countP p = (l.take t).countP p + 1 := by
    rw [List.take_add_one, h, List.countP_append]
    simp [hx]
  have hle : (l.take (t + 1)).countP p ≤ (l.take t').countP p :=
    (List.take_sublist_take_left hlt).countP_le
  omega

end

variable {Op : Type} {Res : Op → Type} {World Job Reply Oracle Act : Type}

/-! ## Removing jobs -/

/-- The number of kept jobs before the job `t`. -/
def rank (gone : Job → Bool) (jobs : List Job) (t : Nat) : Nat :=
  (jobs.take t).countP fun j ↦ !gone j

/-- The jobs started so far, once the move is made. -/
def Move.started (jobs : List Job) : Move Job Oracle Act → List Job
  | .spawn j => jobs ++ [j]
  | .step _ _ | .act _ => jobs

/-- What is left of a move: nothing, if it starts a job that is removed or is a step of one. -/
def Move.kept (gone : Job → Bool) (jobs : List Job) :
    Move Job Oracle Act → List (Move Job Oracle Act)
  | .spawn j => if gone j then [] else [.spawn j]
  | .step t ω => if jobs[t]?.any gone then [] else [.step (rank gone jobs t) ω]
  | .act a => [.act a]

/-- The moves of the run without the jobs of `gone`, after `jobs` have been started. -/
def removeJobs (gone : Job → Bool) :
    List Job → List (Move Job Oracle Act) → List (Move Job Oracle Act)
  | _, [] => []
  | jobs, m :: ms => m.kept gone jobs ++ removeJobs gone (m.started jobs) ms

/-- The jobs of the threads. -/
def Config.jobs (c : Config Res World Job Reply) : List Job := c.pool.map Thread.job

/-- `d` is `c` without the jobs of `gone`. -/
structure Removed (gone : Job → Bool) (c d : Config Res World Job Reply) : Prop where
  world : d.world = c.world
  pool : d.pool = c.pool.filter fun th ↦ !gone th.job
  past : ∀ t th, c.pool[t]? = some th → gone th.job = false →
    past (rank gone c.jobs t) d.trace = past t c.trace

/-- No step of a removed thread changes the world. -/
def Machine.Silent (M : Machine Res World Job Reply Oracle Act) (gone : Job → Bool)
    (c : Config Res World Job Reply) (m : Move Job Oracle Act) : Prop :=
  ∀ (t : Nat) (ω : Oracle) {j : Job} {o : Op} {k : Res o → Program Res Reply} {r : Res o}
    {w : World}, m = .step t ω → c.pool[t]? = some ⟨j, .perform o k⟩ →
    M.perform o ω c.world = some (r, w) → gone j = true → w = c.world

variable {M : Machine Res World Job Reply Oracle Act} {gone : Job → Bool}
variable {c c' d : Config Res World Job Reply} {m : Move Job Oracle Act}
variable {ms : List (Move Job Oracle Act)} {th : Thread Res Job Reply} {t t' : Nat}

theorem rank_jobs (c : Config Res World Job Reply) (t : Nat) :
    rank gone c.jobs t = (c.pool.take t).countP fun th ↦ !gone th.job := by
  rw [rank, Config.jobs, ← List.map_take, List.countP_map]
  rfl

theorem rank_append (jobs jobs' : List Job) (h : t ≤ jobs.length) :
    rank gone (jobs ++ jobs') t = rank gone jobs t := by
  rw [rank, rank, List.take_append_of_le_length h]

theorem rank_ne (h : c.pool[t]? = some th) (hk : gone th.job = false)
    {th' : Thread Res Job Reply} (h' : c.pool[t']? = some th') (hk' : gone th'.job = false)
    (hne : t ≠ t') : rank gone c.jobs t ≠ rank gone c.jobs t' := by
  rw [rank_jobs, rank_jobs]
  rcases Nat.lt_or_gt_of_ne hne with hlt | hlt
  · have hplace := countP_take_lt (p := fun th ↦ !gone th.job) h (by simp [hk]) hlt
    exact Nat.ne_of_lt hplace
  · have hplace := countP_take_lt (p := fun th ↦ !gone th.job) h' (by simp [hk']) hlt
    exact Nat.ne_of_gt hplace

theorem jobs_getElem? (h : c.pool[t]? = some th) : c.jobs[t]? = some th.job := by
  rw [Config.jobs, List.getElem?_map, h]
  rfl

theorem Machine.Step.jobs (hs : M.Step c m c') : c'.jobs = m.started c.jobs := by
  cases hs with
  | spawn j => exact List.map_append
  | step ht hp =>
      obtain ⟨hlt, hget⟩ := List.getElem?_eq_some_iff.mp (jobs_getElem? ht)
      refine List.map_set.trans ?_
      exact (congrArg (c.jobs.set _) hget.symm).trans (List.set_getElem_self hlt)
  | act ha => rfl

namespace Removed

/-- The thread of a kept job. -/
theorem thread (hr : Removed gone c d) (h : c.pool[t]? = some th) (hk : gone th.job = false) :
    d.pool[rank gone c.jobs t]? = some th := by
  rw [hr.pool, rank_jobs]
  exact getElem?_filter_of_getElem? h (by simp [hk])

/-- A thread of its own number has a history of its own. -/
theorem past_ne (hr : Removed gone c d) (h : c.pool[t]? = some th) (hk : gone th.job = false)
    {th' : Thread Res Job Reply} (h' : c.pool[t']? = some th') (hk' : gone th'.job = false)
    (hne : t' ≠ t) (e : Event Res) :
    Conc.past (rank gone c.jobs t) (d.trace ++ [(rank gone c.jobs t', e)]) =
      Conc.past t (c.trace ++ [(t', e)]) := by
  rw [past_append, past_append, past_singleton_ne hne, past_singleton_ne (rank_ne h' hk' h hk hne),
    List.append_nil, List.append_nil]
  exact hr.past t th h hk

theorem spawn (hr : Removed gone c d) (hc : M.Traced c) (hd : M.Traced d) (j : Job) :
    ∃ d', M.run d (Move.kept gone c.jobs (.spawn j)) = some d' ∧
      Removed gone { c with pool := c.pool ++ [⟨j, M.code j⟩] } d' := by
  have hold {p : List (Thread Res Job Reply)} {t : Nat} {th : Thread Res Job Reply}
      (ht : (c.pool ++ p)[t]? = some th) (hk : gone th.job = false) (hlt : t < c.pool.length) :
      Conc.past (rank gone ((c.pool ++ p).map Thread.job) t) d.trace = Conc.past t c.trace := by
    rw [List.map_append, rank_append _ _ (by simpa using Nat.le_of_lt hlt)]
    rw [List.getElem?_append_left hlt] at ht
    exact hr.past t th ht hk
  cases hj : gone j with
  | true =>
      refine ⟨d, by rw [Move.kept, if_pos hj, Machine.run_nil], hr.world, ?_, fun t th ht hk ↦ ?_⟩
      · rw [List.filter_append, ← hr.pool]
        simp [hj]
      · refine hold ht hk (Nat.lt_of_not_le fun hle ↦ ?_)
        rw [List.getElem?_append_right hle] at ht
        obtain rfl := List.mem_singleton.mp (List.mem_of_getElem? ht)
        rw [hj] at hk
        exact nomatch hk
  | false =>
      refine ⟨{ d with pool := d.pool ++ [⟨j, M.code j⟩] }, ?_, hr.world, ?_, fun t th ht hk ↦ ?_⟩
      · rw [Move.kept, if_neg (by simp [hj])]
        rfl
      · rw [List.filter_append, hr.pool]
        simp [hj]
      · rcases Nat.lt_or_ge t c.pool.length with hlt | hle
        · exact hold ht hk hlt
        · -- the new thread has no history in either configuration
          have hnone : Conc.past t c.trace = [] := hc.2 t hle
          change Conc.past _ d.trace = Conc.past t c.trace
          rw [hnone]
          apply hd.2
          have hpool : d.pool.length = rank gone c.jobs c.pool.length := by
            rw [hr.pool, rank_jobs, List.take_length, List.countP_eq_length_filter]
          have happend : rank gone (c.jobs ++ [j]) c.pool.length = d.pool.length := by
            rw [rank_append _ _ (by simp [Config.jobs]), hpool]
          have hjobs : (⟨c.world, c.pool ++ [⟨j, M.code j⟩], c.trace⟩ :
              Config Res World Job Reply).jobs = c.jobs ++ [j] := List.map_append
          rw [← happend, hjobs]
          exact (List.take_sublist_take_left hle).countP_le

theorem stepped (hr : Removed gone c d) {ω : Oracle} {j : Job} {o : Op}
    {k : Res o → Program Res Reply} {r : Res o} {w : World}
    (ht : c.pool[t]? = some ⟨j, .perform o k⟩) (hp : M.perform o ω c.world = some (r, w))
    (hsilent : gone j = true → w = c.world) :
    ∃ d', M.run d (Move.kept gone c.jobs (.step t ω)) = some d' ∧
      Removed gone ⟨w, c.pool.set t ⟨j, k r⟩, c.trace ++ [(t, ⟨o, r⟩)]⟩ d' := by
  have hjobs : (⟨w, c.pool.set t ⟨j, k r⟩, c.trace ++ [(t, ⟨o, r⟩)]⟩ :
      Config Res World Job Reply).jobs = c.jobs := (Machine.Step.step ht hp).jobs
  obtain ⟨hlt, -⟩ := List.getElem?_eq_some_iff.mp ht
  have hother {t' : Nat} {th : Thread Res Job Reply} (hne : t ≠ t')
      (h : (c.pool.set t ⟨j, k r⟩)[t']? = some th) : c.pool[t']? = some th := by
    rwa [List.getElem?_set_ne hne] at h
  cases hj : gone j with
  | true =>
      refine ⟨d, ?_, hr.world.trans (hsilent hj).symm, ?_, fun t' th h hk ↦ ?_⟩
      · rw [Move.kept, jobs_getElem? ht, Option.any_some, if_pos hj, Machine.run_nil]
      · rw [filter_set_of_gone ht (by simp [hj]) (by simp [hj])]
        exact hr.pool
      · have hne : t ≠ t' := by
          rintro rfl
          rw [List.getElem?_set_self hlt] at h
          obtain rfl := Option.some.inj h
          rw [hj] at hk
          exact nomatch hk
        rw [hjobs, past_append, past_singleton_ne hne, List.append_nil]
        exact hr.past t' th (hother hne h) hk
  | false =>
      have hthread := hr.thread ht hj
      have hp' : M.perform o ω d.world = some (r, w) := hr.world ▸ hp
      refine ⟨⟨w, d.pool.set (rank gone c.jobs t) ⟨j, k r⟩,
        d.trace ++ [(rank gone c.jobs t, ⟨o, r⟩)]⟩, ?_, rfl, ?_, fun t' th h hk ↦ ?_⟩
      · rw [Move.kept, jobs_getElem? ht, Option.any_some, if_neg (by simp [hj])]
        exact (Machine.Step.step hthread hp').run_cons Machine.run_nil
      · rw [filter_set_of_kept ht (by simp [hj]) (by simp [hj]), hr.pool, rank_jobs]
      · rw [hjobs]
        by_cases hne : t = t'
        · subst hne
          rw [past_append, past_append, past_singleton_self, past_singleton_self,
            hr.past t _ ht hj]
        · exact hr.past_ne (hother hne h) hk ht hj hne _

/-- A move, and what is left of it. -/
theorem step (hr : Removed gone c d) (hc : M.Traced c) (hd : M.Traced d) (hs : M.Step c m c')
    (hsilent : M.Silent gone c m) :
    ∃ d', M.run d (m.kept gone c.jobs) = some d' ∧ Removed gone c' d' := by
  cases hs with
  | spawn j => exact hr.spawn hc hd j
  | step ht hp => exact hr.stepped ht hp (hsilent _ _ rfl ht hp)
  | act ha =>
      refine ⟨{ d with world := _ }, ?_, rfl, hr.pool, hr.past⟩
      exact (Machine.Step.act (hr.world ▸ ha)).run_cons Machine.run_nil

/-- Two runs from which the same is left agree on the threads that are kept. -/
theorem agree {c₁ c₂ : Config Res World Job Reply} (h₁ : Removed gone c₁ d) (h₂ : Removed gone c₂ d)
    {t₁ t₂ : Nat} {th₁ th₂ : Thread Res Job Reply} (ht₁ : c₁.pool[t₁]? = some th₁)
    (hk₁ : gone th₁.job = false) (ht₂ : c₂.pool[t₂]? = some th₂) (hk₂ : gone th₂.job = false)
    (hrank : rank gone c₁.jobs t₁ = rank gone c₂.jobs t₂) :
    th₁ = th₂ ∧ Conc.past t₁ c₁.trace = Conc.past t₂ c₂.trace := by
  constructor
  · have hthread := h₁.thread ht₁ hk₁
    rw [hrank, h₂.thread ht₂ hk₂] at hthread
    exact (Option.some.inj hthread).symm
  · rw [← h₁.past t₁ th₁ ht₁ hk₁, ← h₂.past t₂ th₂ ht₂ hk₂, hrank]

end Removed

theorem traced_of_traced (hc : M.Traced c) (h : M.run c ms = some c') : M.Traced c' :=
  Machine.run_invariant (fun hc hs ↦ hs.traced hc) h hc

/-- A run, and what is left of it. -/
theorem run_removeJobs (hr : Removed gone c d) (hc : M.Traced c) (hd : M.Traced d)
    (h : M.run c ms = some c') (hsilent : M.Along (M.Silent gone) c ms) :
    ∃ d', M.run d (removeJobs gone c.jobs ms) = some d' ∧ Removed gone c' d' := by
  induction ms generalizing c d with
  | nil =>
      obtain rfl := Option.some.inj h
      exact ⟨d, rfl, hr⟩
  | cons m ms ih =>
      obtain ⟨c₁, h₁, h⟩ := Machine.run_cons.mp h
      have hs := Machine.step_of_next h₁
      obtain ⟨d₁, hd₁, hr₁⟩ := hr.step hc hd hs hsilent.1
      obtain ⟨d', hd', hr'⟩ := ih hr₁ (hs.traced hc) (traced_of_traced hd hd₁) h (hsilent.2 c₁ h₁)
      rw [hs.jobs] at hd'
      exact ⟨d', Machine.run_append.mpr ⟨d₁, hd₁, hd'⟩, hr'⟩

/-- A run from the beginning, and what is left of it. -/
theorem removed_of_run {w : World} (h : M.run (.start w) ms = some c)
    (hsilent : M.Along (M.Silent gone) (.start w) ms) :
    ∃ d, M.run (.start w) (removeJobs gone [] ms) = some d ∧ Removed gone c d := by
  have hstart : M.Traced (.start w) := Machine.traced_of_run Machine.run_nil
  exact run_removeJobs ⟨rfl, rfl, by simp [Config.start]⟩ hstart hstart h hsilent

end ZenthDht.Conc
