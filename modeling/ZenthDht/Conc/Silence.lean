import Mathlib.Data.List.Forall2
import ZenthDht.Conc.Machine

/-!
# Leaving threads out of a run

Some threads of a machine do work that the others are not supposed to notice.  A run can then be
compared with the run in which they take no step.  The worlds of the two runs differ, but as a
relation `R` between them allows; the operations of the other threads may give different results,
but only such as their programs are *blind* to.

A thread may also have noticed: it is *stale*.  It then still does in the second run what it does in
the first, as its program is *similar* to itself, but its results are others.

`Hidden` collects what has to be shown of one move, and `omits_of_hidden` is the rule: to every run
there is one without the steps of the silent threads, in which all the others do the same.
-/

namespace ZenthDht.Conc

variable {Op : Type} {Res : Op → Type} {World Job Reply Oracle Act α β : Type}

namespace Program

variable {S L : (o : Op) → Res o → Res o → Prop}

/-- After two results of an operation that `S` relates the program goes on in the same way. -/
def Blind (S : (o : Op) → Res o → Res o → Prop) : Program Res α → Prop
  | ret _ => True
  | perform o k => (∀ r r', S o r r' → k r = k r') ∧ ∀ r, Blind S (k r)

theorem Blind.bind {p : Program Res α} {f : α → Program Res β} (h : p.Blind S)
    (hf : ∀ a, (f a).Blind S) : (p >>= f).Blind S := by
  induction p with
  | ret a => exact hf a
  | perform o k ih =>
      refine ⟨fun r r' hr ↦ ?_, fun r ↦ ih r (h.2 r)⟩
      show k r >>= f = k r' >>= f
      rw [h.1 r r' hr]

/-- A program is blind if it performs only operations whose related results are equal. -/
theorem Obeys.blind {guard : List (Event Res) → Op → Prop} {post : List (Event Res) → α → Prop}
    {past : List (Event Res)} {p : Program Res α} (h : Obeys guard post past p)
    (hS : ∀ past o, guard past o → ∀ r r', S o r r' → r = r') : p.Blind S := by
  induction p generalizing past with
  | ret a => trivial
  | perform o k ih => exact ⟨fun r r' hr ↦ congrArg k (hS _ o h.1 r r' hr), fun r ↦ ih r (h.2 r)⟩

/-- The two programs perform the same operations, as long as `L` relates their results. -/
inductive Similar (L : (o : Op) → Res o → Res o → Prop) : Program Res α → Program Res α → Prop
  | ret (a b : α) : Similar L (ret a) (ret b)
  | perform (o : Op) {k k' : Res o → Program Res α}
      (h : ∀ r r', L o r r' → Similar L (k r) (k' r')) : Similar L (perform o k) (perform o k')

theorem Similar.bind {p p' : Program Res α} {f f' : α → Program Res β} (h : Similar L p p')
    (hf : ∀ a b, Similar L (f a) (f' b)) : Similar L (p >>= f) (p' >>= f') := by
  induction h with
  | ret a b => exact hf a b
  | perform o _ ih => exact .perform o ih

/-- What a program is blind to does not make it perform other operations. -/
theorem Blind.similar {guard : List (Event Res) → Op → Prop}
    {post : List (Event Res) → α → Prop} {past : List (Event Res)} {p : Program Res α}
    (hp : p.Blind S) (h : Obeys guard post past p)
    (hL : ∀ past o, guard past o → ∀ r r', L o r r' → S o r r') : Similar L p p := by
  induction p generalizing past with
  | ret a => exact .ret a a
  | perform o k ih =>
      refine .perform o fun r r' hr ↦ ?_
      rw [hp.1 r r' (hL _ o h.1 r r' hr)]
      exact ih r' (hp.2 r') (h.2 r')

end Program

/-- Two events of the same operation with related results. -/
def Alike (S : (o : Op) → Res o → Res o → Prop) (e e' : Event Res) : Prop :=
  ∃ o r r', e = ⟨o, r⟩ ∧ e' = ⟨o, r'⟩ ∧ S o r r'

namespace Machine

variable (M : Machine Res World Job Reply Oracle Act) (silent : Job → Prop)

/-- The second run is the first one without the steps of silent threads, with an environment that
acts as `A` allows. -/
inductive Omits (A : Act → Act → Prop) : Config Res World Job Reply →
    List (Move Job Oracle Act) → List (Move Job Oracle Act) → Prop
  | nil (c : Config Res World Job Reply) : Omits A c [] []
  | spawn {c c₁ : Config Res World Job Reply} {j : Job} {ms ms' : List (Move Job Oracle Act)}
      (hnext : M.next c (.spawn j) = some c₁) (h : Omits A c₁ ms ms') :
      Omits A c (.spawn j :: ms) (.spawn j :: ms')
  | act {c c₁ : Config Res World Job Reply} {a a' : Act} {ms ms' : List (Move Job Oracle Act)}
      (hnext : M.next c (.act a) = some c₁) (ha : A a a') (h : Omits A c₁ ms ms') :
      Omits A c (.act a :: ms) (.act a' :: ms')
  | step {c c₁ : Config Res World Job Reply} {t : Nat} {ω : Oracle} {th : Thread Res Job Reply}
      {ms ms' : List (Move Job Oracle Act)} (ht : c.pool[t]? = some th) (hj : ¬ silent th.job)
      (hnext : M.next c (.step t ω) = some c₁) (h : Omits A c₁ ms ms') :
      Omits A c (.step t ω :: ms) (.step t ω :: ms')
  | skip {c c₁ : Config Res World Job Reply} {t : Nat} {ω : Oracle} {th : Thread Res Job Reply}
      {ms ms' : List (Move Job Oracle Act)} (ht : c.pool[t]? = some th) (hj : silent th.job)
      (hnext : M.next c (.step t ω) = some c₁) (h : Omits A c₁ ms ms') :
      Omits A c (.step t ω :: ms) ms'

/-- The run without the steps of silent threads. -/
def without (silent : Job → Bool) : Config Res World Job Reply → List (Move Job Oracle Act) →
    List (Move Job Oracle Act)
  | _, [] => []
  | c, m :: ms =>
    let rest := match M.next c m with
      | some c' => without silent c' ms
      | none => []
    match m with
    | .step t ω => if c.pool[t]?.any fun th ↦ silent th.job then rest else .step t ω :: rest
    | m => m :: rest

variable (S L : (o : Op) → Res o → Res o → Prop) (stale : Config Res World Job Reply → Nat → Prop)

/-- In the second configuration the threads that are not silent have done what they have done in the
first one, with similar results, and with the same results if they are not stale. -/
structure Shadows (c c' : Config Res World Job Reply) : Prop where
  length : c'.pool.length = c.pool.length
  kept : ∀ t th, c.pool[t]? = some th → ¬ silent th.job →
    ∃ p, c'.pool[t]? = some ⟨th.job, p⟩ ∧ th.rest.Similar L p ∧
      List.Forall₂ (Alike L) (past t c.trace) (past t c'.trace)
  heard : ∀ t th, c.pool[t]? = some th → ¬ silent th.job → ¬ stale c t →
    c'.pool[t]? = some th ∧ th.rest.Blind S ∧
      List.Forall₂ (Alike S) (past t c.trace) (past t c'.trace)

variable (A : Act → Act → Prop)
variable (R : List (Move Job Oracle Act) → Config Res World Job Reply → World → Prop)

/-- What a move from `c` to `c₁` must leave of the relation, when it is the next one after `ms` and
the second run has come to the world `w'`. -/
inductive Hidden (ms : List (Move Job Oracle Act)) (c : Config Res World Job Reply) (w' : World)
    (c₁ : Config Res World Job Reply) : Move Job Oracle Act → Prop
  | spawn (j : Job) (hR : R (ms ++ [.spawn j]) c₁ w') : Hidden ms c w' c₁ (.spawn j)
  | act {a a' : Act} {w₁ : World} (ha : A a a') (hact : M.act a' w' = some w₁)
      (hR : R (ms ++ [.act a]) c₁ w₁) : Hidden ms c w' c₁ (.act a)
  | step {t : Nat} {ω : Oracle} {j : Job} {o : Op} {k : Res o → Program Res Reply} {r r' : Res o}
      {w₁ : World} (ht : c.pool[t]? = some ⟨j, .perform o k⟩) (hj : ¬ silent j)
      (hp : M.perform o ω c.world = some (r, c₁.world)) (hp' : M.perform o ω w' = some (r', w₁))
      (hL : L o r r') (hS : ¬ stale c₁ t → S o r r') (hR : R (ms ++ [.step t ω]) c₁ w₁) :
      Hidden ms c w' c₁ (.step t ω)
  | skip {t : Nat} {ω : Oracle} {th : Thread Res Job Reply} (ht : c.pool[t]? = some th)
      (hj : silent th.job) (hR : R (ms ++ [.step t ω]) c₁ w') : Hidden ms c w' c₁ (.step t ω)

/-- The programs of the threads that are not silent, and the staleness of threads, allow to leave
the silent threads out. -/
structure Omittable : Prop where
  blind : ∀ j, ¬ silent j → (M.code j).Blind S
  similar : ∀ j, ¬ silent j → (M.code j).Similar L (M.code j)
  stays : ∀ {c m c₁ t}, M.Step c m c₁ → stale c t → stale c₁ t

variable {M silent S L stale A R} {c₀ c c' c₁ : Config Res World Job Reply}
variable {m : Move Job Oracle Act} {ms : List (Move Job Oracle Act)}

theorem omits_without {silent : Job → Bool} (hA : ∀ a, A a a) (h : M.run c ms = some c') :
    M.Omits (fun j ↦ silent j = true) A c ms (M.without silent c ms) := by
  induction ms generalizing c with
  | nil => exact .nil c
  | cons m ms ih =>
      obtain ⟨d, hnext, hd⟩ := run_cons.mp h
      have hrest := ih hd
      simp only [without, hnext]
      cases m with
      | spawn j => exact .spawn hnext hrest
      | act a => exact .act hnext (hA a) hrest
      | step t ω =>
          cases step_of_next hnext with
          | @step _ _ j o k r w ht hp =>
              simp only [ht, Option.any_some]
              split
              next hj => exact .skip ht hj hnext hrest
              next hj => exact .step ht hj hnext hrest

section

variable (hM : M.Omittable silent S L stale)
include hM

theorem Omittable.spawn (h : Shadows silent S L stale c c') (hc : M.Traced c)
    (hc' : M.Traced c') (j : Job) :
    Shadows silent S L stale { c with pool := c.pool ++ [⟨j, M.code j⟩] }
      { c' with pool := c'.pool ++ [⟨j, M.code j⟩] } := by
  have hnone : past c.pool.length c.trace = [] := hc.2 _ (Nat.le_refl _)
  have hnone' : past c.pool.length c'.trace = [] := hc'.2 _ (Nat.le_of_eq h.length)
  have hnew {t : Nat} {th : Thread Res Job Reply}
      (ht : (c.pool ++ [⟨j, M.code j⟩])[t]? = some th) :
      c.pool[t]? = some th ∨ t = c.pool.length ∧ th = ⟨j, M.code j⟩ := by
    rw [List.getElem?_append] at ht
    split at ht
    · exact .inl ht
    next hge =>
      obtain ⟨hlt, hth⟩ := List.getElem?_eq_some_iff.mp ht
      rw [List.length_singleton] at hlt
      refine .inr ⟨by omega, ?_⟩
      exact (List.mem_singleton.mp (hth ▸ List.getElem_mem hlt))
  have hold {t : Nat} {th : Thread Res Job Reply} (ht : c'.pool[t]? = some th) :
      (c'.pool ++ [⟨j, M.code j⟩])[t]? = some th := by
    rw [List.getElem?_append_left (List.getElem?_eq_some_iff.mp ht).1, ht]
  have hlast : (c'.pool ++ [⟨j, M.code j⟩])[c.pool.length]? = some ⟨j, M.code j⟩ := by
    rw [← h.length]
    exact List.getElem?_concat_length
  have hstays {t : Nat} (ht : ¬ stale { c with pool := c.pool ++ [⟨j, M.code j⟩] } t) :
      ¬ stale c t := fun hc ↦ ht (hM.stays (.spawn j) hc)
  refine ⟨?_, fun t th ht hj ↦ ?_, fun t th ht hj hfresh ↦ ?_⟩
  · rw [List.length_append, List.length_append, h.length]
  · rcases hnew ht with ht | ⟨rfl, rfl⟩
    · obtain ⟨p, hpool, hrest⟩ := h.kept t th ht hj
      exact ⟨p, hold hpool, hrest⟩
    · refine ⟨_, hlast, hM.similar j hj, ?_⟩
      show List.Forall₂ _ (past _ c.trace) (past _ c'.trace)
      rw [hnone, hnone']
      exact .nil
  · rcases hnew ht with ht | ⟨rfl, rfl⟩
    · obtain ⟨hpool, hrest⟩ := h.heard t th ht hj (hstays hfresh)
      exact ⟨hold hpool, hrest⟩
    · refine ⟨hlast, hM.blind j hj, ?_⟩
      show List.Forall₂ _ (past _ c.trace) (past _ c'.trace)
      rw [hnone, hnone']
      exact .nil

theorem Omittable.step (h : Shadows silent S L stale c c') {t : Nat} {ω : Oracle} {j : Job}
    {o : Op} {k : Res o → Program Res Reply} {r r' : Res o} {w w' : World}
    (ht : c.pool[t]? = some ⟨j, .perform o k⟩) (hj : ¬ silent j)
    (hp : M.perform o ω c.world = some (r, w)) (hp' : M.perform o ω c'.world = some (r', w'))
    (hL : L o r r')
    (hS : ¬ stale ⟨w, c.pool.set t ⟨j, k r⟩, c.trace ++ [(t, ⟨o, r⟩)]⟩ t → S o r r') :
    ∃ c₁', M.Step c' (.step t ω) c₁' ∧ c₁'.world = w' ∧ Shadows silent S L stale
      ⟨w, c.pool.set t ⟨j, k r⟩, c.trace ++ [(t, ⟨o, r⟩)]⟩ c₁' := by
  obtain ⟨p, hpool, hsimilar, hpast⟩ := h.kept t _ ht hj
  obtain ⟨hlt, -⟩ := List.getElem?_eq_some_iff.mp ht
  obtain ⟨hlt', -⟩ := List.getElem?_eq_some_iff.mp hpool
  have hstays {u : Nat}
      (hu : ¬ stale ⟨w, c.pool.set t ⟨j, k r⟩, c.trace ++ [(t, ⟨o, r⟩)]⟩ u) : ¬ stale c u :=
    fun hc ↦ hu (hM.stays (.step ht hp) hc)
  cases hsimilar with
  | @perform _ _ k' hk =>
  refine ⟨_, .step hpool hp', rfl, ?_, fun u th hu hth ↦ ?_, fun u th hu hth hfresh ↦ ?_⟩
  · simp only [List.length_set, h.length]
  · by_cases hut : t = u
    · subst hut
      rw [List.getElem?_set_self hlt] at hu
      obtain rfl := Option.some.inj hu
      refine ⟨_, List.getElem?_set_self hlt', hk r r' hL, ?_⟩
      simp only [past_append, past_singleton_self]
      exact List.rel_append hpast (.cons ⟨o, r, r', rfl, rfl, hL⟩ .nil)
    · rw [List.getElem?_set_ne hut] at hu
      obtain ⟨q, hq, hrest, hpast⟩ := h.kept u th hu hth
      refine ⟨q, by rw [List.getElem?_set_ne hut, hq], hrest, ?_⟩
      simpa only [past_append, past_singleton_ne hut, List.append_nil] using hpast
  · by_cases hut : t = u
    · subst hut
      rw [List.getElem?_set_self hlt] at hu
      obtain rfl := Option.some.inj hu
      obtain ⟨hsame, hblind, hpast⟩ := h.heard t _ ht hj (hstays hfresh)
      obtain ⟨-, hk'⟩ := Thread.mk.inj (Option.some.inj (hpool.symm.trans hsame))
      cases hk'
      refine ⟨?_, hblind.2 r, ?_⟩
      · rw [List.getElem?_set_self hlt', hblind.1 r r' (hS hfresh)]
      · simp only [past_append, past_singleton_self]
        exact List.rel_append hpast (.cons ⟨o, r, r', rfl, rfl, hS hfresh⟩ .nil)
    · rw [List.getElem?_set_ne hut] at hu
      obtain ⟨hq, hrest, hpast⟩ := h.heard u th hu hth (hstays hfresh)
      refine ⟨by rw [List.getElem?_set_ne hut, hq], hrest, ?_⟩
      simpa only [past_append, past_singleton_ne hut, List.append_nil] using hpast

theorem Omittable.skip (h : Shadows silent S L stale c c') {t : Nat} {ω : Oracle} {j : Job}
    {o : Op} {k : Res o → Program Res Reply} {r : Res o} {w : World}
    (ht : c.pool[t]? = some ⟨j, .perform o k⟩) (hj : silent j)
    (hp : M.perform o ω c.world = some (r, w)) :
    Shadows silent S L stale ⟨w, c.pool.set t ⟨j, k r⟩, c.trace ++ [(t, ⟨o, r⟩)]⟩ c' := by
  obtain ⟨hlt, -⟩ := List.getElem?_eq_some_iff.mp ht
  have hother {u : Nat} {th : Thread Res Job Reply}
      (hu : (c.pool.set t ⟨j, k r⟩)[u]? = some th) (hth : ¬ silent th.job) : t ≠ u := by
    rintro rfl
    rw [List.getElem?_set_self hlt] at hu
    obtain rfl := Option.some.inj hu
    exact hth hj
  refine ⟨?_, fun u th hu hth ↦ ?_, fun u th hu hth hfresh ↦ ?_⟩
  · simp only [List.length_set, h.length]
  · have hut := hother hu hth
    rw [List.getElem?_set_ne hut] at hu
    obtain ⟨p, hpool, hrest, hpast⟩ := h.kept u th hu hth
    refine ⟨p, hpool, hrest, ?_⟩
    simpa only [past_append, past_singleton_ne hut, List.append_nil] using hpast
  · have hut := hother hu hth
    rw [List.getElem?_set_ne hut] at hu
    obtain ⟨hpool, hrest, hpast⟩ := h.heard u th hu hth fun hc ↦ hfresh (hM.stays (.step ht hp) hc)
    refine ⟨hpool, hrest, ?_⟩
    simpa only [past_append, past_singleton_ne hut, List.append_nil] using hpast

/-- One move of the first run, and what the second run does meanwhile. -/
theorem Omittable.moves (h : M.Hidden silent S L stale A R ms c c'.world c₁ m)
    (hs : M.Step c m c₁) (hshadows : Shadows silent S L stale c c') (hc : M.Traced c)
    (hc' : M.Traced c') :
    ∃ ms' c₁', M.run c' ms' = some c₁' ∧ Shadows silent S L stale c₁ c₁' ∧
      R (ms ++ [m]) c₁ c₁'.world ∧ ∀ rest rest', M.Omits silent A c₁ rest rest' →
        M.Omits silent A c (m :: rest) (ms' ++ rest') := by
  have hnext := hs.next
  cases h with
  | spawn j hR =>
      cases hs with
      | spawn =>
          exact ⟨[.spawn j], { c' with pool := c'.pool ++ [⟨j, M.code j⟩] }, rfl,
            hM.spawn hshadows hc hc' j, hR, fun _ _ h ↦ .spawn rfl h⟩
  | @act a a' w₁ ha hact hR =>
      cases hs with
      | act hw =>
          refine ⟨[.act a'], { c' with world := w₁ }, (Step.act hact).run_cons run_nil, ?_, hR,
            fun _ _ h ↦ .act hnext ha h⟩
          exact ⟨hshadows.length, hshadows.kept, fun t th ht hj hfresh ↦
            hshadows.heard t th ht hj fun hc ↦ hfresh (hM.stays (.act hw) hc)⟩
  | @step t ω j o k r r' w₁ ht hj hp hp' hL hS hR =>
      cases hs with
      | step hu hq =>
          obtain ⟨rfl, hrest⟩ := Thread.mk.inj (Option.some.inj (ht.symm.trans hu))
          cases hrest
          obtain ⟨rfl, -⟩ := Prod.mk.inj (Option.some.inj (hp.symm.trans hq))
          obtain ⟨c₁', hs', rfl, hshadows'⟩ := hM.step hshadows ht hj hp hp' hL hS
          exact ⟨[.step t ω], c₁', hs'.run_cons run_nil, hshadows', hR,
            fun _ _ h ↦ .step ht hj hnext h⟩
  | @skip t ω th ht hj hR =>
      cases hs with
      | @step _ _ j o k r w hu hp =>
          obtain rfl := Option.some.inj (ht.symm.trans hu)
          exact ⟨[], c', rfl, hM.skip hshadows hu hj hp, hR, fun _ _ h ↦ .skip ht hj hnext h⟩

/-- **Silent threads.**  If every move hides the steps of the silent threads, a run without them
leads the other threads to where they are. -/
theorem omits_of_hidden {w : World} (hR : R [] (.start w) w)
    (hhidden : ∀ pre m post c w' c₁, ms = pre ++ m :: post → M.run (.start w) pre = some c →
      R pre c w' → M.Step c m c₁ → M.Hidden silent S L stale A R pre c w' c₁ m)
    (hrun : M.run (.start w) ms = some c) :
    ∃ ms' c', M.Omits silent A (.start w) ms ms' ∧ M.run (.start w) ms' = some c' ∧
      Shadows silent S L stale c c' ∧ R ms c c'.world := by
  have hrest (post : List (Move Job Oracle Act)) : ∀ pre d d', ms = pre ++ post →
      M.run (.start w) pre = some d → (∃ ms', M.run (.start w) ms' = some d') →
      Shadows silent S L stale d d' → R pre d d'.world → M.run d post = some c →
      ∃ ms' c', M.Omits silent A d post ms' ∧ M.run d' ms' = some c' ∧
        Shadows silent S L stale c c' ∧ R ms c c'.world := by
    induction post with
    | nil =>
        intro pre d d' hms hpre _ hshadows hR hd
        obtain rfl := Option.some.inj hd
        rw [List.append_nil] at hms
        exact ⟨[], d', .nil d, rfl, hshadows, hms ▸ hR⟩
    | cons m post ih =>
        rintro pre d d' hms hpre ⟨ms₀, hms₀⟩ hshadows hR hd
        obtain ⟨d₁, hnext, hd₁⟩ := run_cons.mp hd
        have hs := step_of_next hnext
        obtain ⟨ms₁, d₁', hms₁, hshadows₁, hR₁, homits⟩ :=
          hM.moves (hhidden pre m post d d'.world d₁ hms hpre hR hs) hs hshadows
            (traced_of_run hpre) (traced_of_run hms₀)
        obtain ⟨ms₂, c', hrest, hms₂, hend⟩ := ih (pre ++ [m]) d₁ d₁' (by rw [hms, List.append_assoc,
          List.singleton_append]) (run_append.mpr ⟨d, hpre, run_cons.mpr ⟨d₁, hnext, rfl⟩⟩)
          ⟨ms₀ ++ ms₁, run_append.mpr ⟨d', hms₀, hms₁⟩⟩ hshadows₁ hR₁ hd₁
        exact ⟨ms₁ ++ ms₂, c', homits _ _ hrest, run_append.mpr ⟨d₁', hms₁, hms₂⟩, hend⟩
  refine hrest ms [] (.start w) (.start w) rfl rfl ⟨[], rfl⟩ ⟨rfl, ?_, ?_⟩ hR hrun
  · exact fun t th ht ↦ nomatch ht
  · exact fun t th ht ↦ nomatch ht

end

end Machine

end ZenthDht.Conc
