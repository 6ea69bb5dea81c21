import ZenthDht.Conc.Machine

/-!
# Scripts

A program whose operations are of certain kinds, in a certain order, follows a script: the list of
these kinds, of which a run of the program may leave some out.  A script bounds the work of the
program whatever results it receives, and, where every operation it lists can be performed, the
program can be run to its end.

Nothing here knows what the operations mean.
-/

namespace ZenthDht.Conc

variable {Op : Type} {Res : Op → Type} {K α β : Type}

namespace Program

/-- The operations that the program performs are of the kinds that the script lists, in this
order. -/
def Follows (kind : Op → K) : Program Res α → List K → Prop
  | ret _, _ => True
  | perform o k, script => ∃ rest, (kind o :: rest) <:+ script ∧ ∀ r, Follows kind (k r) rest

variable {kind : Op → K} {script script₁ : List K} {p q : Program Res α}

/-- The first operation is the first of the script. -/
theorem follows_perform {o : Op} {k : Res o → Program Res α}
    (h : ∀ r, (k r).Follows kind script) : (perform o k).Follows kind (kind o :: script) :=
  ⟨script, List.suffix_rfl, h⟩

/-- What comes first in a script may be left out. -/
theorem Follows.of_suffix (h : p.Follows kind script) (hs : script <:+ script₁) :
    p.Follows kind script₁ := by
  cases p with
  | ret a => trivial
  | perform o k =>
      obtain ⟨rest, hrest, hk⟩ := h
      exact ⟨rest, hrest.trans hs, hk⟩

theorem Follows.skip (h : p.Follows kind script) (x : K) : p.Follows kind (x :: script) :=
  h.of_suffix (List.suffix_cons x script)

/-- What comes last in a script may be left out. -/
theorem Follows.append (h : p.Follows kind script) (script' : List K) :
    p.Follows kind (script ++ script') := by
  induction p generalizing script with
  | ret a => trivial
  | perform o k ih =>
      obtain ⟨rest, ⟨before, rfl⟩, hk⟩ := h
      exact ⟨rest ++ script', ⟨before, by simp⟩, fun r ↦ ih r (hk r)⟩

/-- One program after another follows one script after the other. -/
theorem Follows.bind {p : Program Res α} {f : α → Program Res β} (h : p.Follows kind script₁)
    (script₂ : List K) (hf : ∀ a, (f a).Follows kind script₂) :
    (p >>= f).Follows kind (script₁ ++ script₂) := by
  induction p generalizing script₁ with
  | ret a => exact (hf a).of_suffix (List.suffix_append _ _)
  | perform o k ih =>
      obtain ⟨rest, ⟨before, rfl⟩, hk⟩ := h
      exact ⟨rest ++ script₂, ⟨before, by simp⟩, fun r ↦ ih r (hk r)⟩

/-- A program that only returns in the end what another has found. -/
theorem Follows.map (h : p.Follows kind script) (g : α → β) :
    (p >>= fun a ↦ ret (g a)).Follows kind script := by
  have hend (a : α) : (ret (g a) : Program Res β).Follows kind [] := trivial
  simpa only [List.append_nil] using h.bind [] hend

/-- What is left of a program follows what is left of its script. -/
theorem Reaches.follows {past : List (Event Res)} (hr : p.Reaches past q)
    (h : p.Follows kind script) :
    ∃ rest, q.Follows kind rest ∧ ((past.map fun e ↦ kind e.1) ++ rest).Sublist script := by
  induction hr with
  | refl => exact ⟨script, h, List.Sublist.refl _⟩
  | @snoc past o k r hr ih =>
      obtain ⟨rest, ⟨rest', hs, hk⟩, hsub⟩ := ih
      refine ⟨rest', hk r, List.Sublist.trans ?_ hsub⟩
      rw [List.map_append, List.append_assoc]
      exact (List.Sublist.refl _).append hs.sublist

end Program

/-! ## Runs -/

namespace Machine

variable {World Job Reply Oracle Act : Type} {M : Machine Res World Job Reply Oracle Act}
variable {kind : Op → K} {script : List K} {c c' : Config Res World Job Reply}
variable {ms : List (Move Job Oracle Act)} {w : World} {t : Nat} {j : Job}

/-- **The script rule.**  In a configuration reached by a run, what a thread has done and what it
has still to do follow the script of its code. -/
theorem follows_of_run (h : M.run (.start w) ms = some c) {rest : Program Res Reply}
    (ht : c.pool[t]? = some ⟨j, rest⟩) (hcode : (M.code j).Follows kind script) :
    ∃ left, rest.Follows kind left ∧
      (((past t c.trace).map fun e ↦ kind e.1) ++ left).Sublist script :=
  ((traced_of_run h).1 t _ ht).follows hcode

/-- Thread `t` has returned, or stands before an operation that is never performed. -/
def Over (stuck : Op → Prop) (c : Config Res World Job Reply) (t : Nat) (j : Job) : Prop :=
  (∃ a, c.pool[t]? = some ⟨j, .ret a⟩) ∨ ∃ o k, c.pool[t]? = some ⟨j, .perform o k⟩ ∧ stuck o

/-- A thread that follows a script of operations that can be performed, is over after as many of
its own steps as the script is long. -/
theorem finishes {stuck : Op → Prop} {rest : Program Res Reply} (hf : rest.Follows kind script)
    (henabled : ∀ o, kind o ∈ script → stuck o ∨
      ∀ w, ∃ ω r w', M.perform o ω w = some (r, w'))
    (ht : c.pool[t]? = some ⟨j, rest⟩) :
    ∃ (ωs : List Oracle) (c' : Config Res World Job Reply), ωs.length ≤ script.length ∧
      M.run c (ωs.map fun ω ↦ .step t ω) = some c' ∧ Over stuck c' t j := by
  induction rest generalizing c script with
  | ret a => exact ⟨[], c, Nat.zero_le _, rfl, .inl ⟨a, ht⟩⟩
  | perform o k ih =>
      obtain ⟨rest, hs, hk⟩ := hf
      rcases henabled o (hs.subset (List.mem_cons_self ..)) with hstuck | hperform
      · exact ⟨[], c, Nat.zero_le _, rfl, .inr ⟨o, k, ht, hstuck⟩⟩
      · obtain ⟨ω, r, w', hp⟩ := hperform c.world
        obtain ⟨hlt, -⟩ := List.getElem?_eq_some_iff.mp ht
        obtain ⟨ωs, c', hlen, hrun, hover⟩ := ih r (hk r)
          (fun o ho ↦ henabled o (hs.subset (List.mem_cons_of_mem _ ho)))
          (c := ⟨w', c.pool.set t ⟨j, k r⟩, c.trace ++ [(t, ⟨o, r⟩)]⟩)
          (List.getElem?_set_self hlt)
        refine ⟨ω :: ωs, c', ?_, (Step.step ht hp).run_cons hrun, hover⟩
        have := hs.length_le
        simp only [List.length_cons] at this ⊢
        omega

end Machine

end ZenthDht.Conc
