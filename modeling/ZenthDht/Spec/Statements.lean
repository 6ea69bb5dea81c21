import ZenthDht.Conc.Interleave
import ZenthDht.Spec.Run

/-!
# The statements of a request

What a request does besides its SQL statements (it reads the clock, draws random bytes, verifies
signatures) depends on nothing that another request does.  Given what the environment answers to
its operations, a request is a program over SQL statements alone, `statements`; two requests
interleave as `Interleaves` says of these programs.

A statement that fails for a reason of its own is not executed, and does not occur.
-/

namespace ZenthDht

open Conc

/-- What the environment has for one operation of a request: the time, whether a statement fails
and why, and random bytes. -/
structure Input where
  clock : Nat
  fails : Option String
  bytes : Bytes32

/-- What it has for each operation of a request in turn. -/
abbrev Env : Type := Nat → Input

/-- After the first operation. -/
def Env.tail (e : Env) : Env := fun i ↦ e (i + 1)

/-- A statement and the time at which it is executed. -/
structure TimedStmt where
  stmt : Stmt
  now : NaiveDateTime

abbrev StmtRes (s : TimedStmt) : Type := Except DieselError s.stmt.Out

def execute (s : TimedStmt) (db : Db) : StmtRes s × Db := s.stmt.exec s.now db

variable {α : Type}

/-- The statements of a program in an environment.  Only the operations of requests that use
nothing but the database, the clock, random bytes and signatures are followed. -/
def statements (verifyDetached : Bytes → Bytes → Bytes → Bool) :
    Handler (Option α) → Env → Program StmtRes (Option α)
  | .ret a, _ => .ret a
  | .perform (.sql s) k, e =>
    match (e 0).fails with
    | some m => statements verifyDetached (k (.error (.other m))) e.tail
    | none => .perform ⟨s, (e 0).clock⟩ fun r ↦ statements verifyDetached (k r) e.tail
  | .perform .clock k, e => statements verifyDetached (k (e 0).clock) e.tail
  | .perform .fillBytes k, e => statements verifyDetached (k (e 0).bytes) e.tail
  | .perform (.verify key m s) k, e =>
    statements verifyDetached (k (verifyDilithiumSignature verifyDetached key m s)) e.tail
  | .perform _ _, _ => .ret none

section

variable {verifyDetached : Bytes → Bytes → Bytes → Bool} {e : Env} {β γ : Type}
variable {g : γ → Handler (Option α)}

theorem statements_fresh {ts : UInt64} {f : Bool → Handler γ} :
    statements verifyDetached (isTimestampFresh ts >>= f >>= g) e =
      statements verifyDetached (f (fresh (e 0).clock ts) >>= g) e.tail := rfl

theorem statements_utcNow {f : NaiveDateTime → Handler γ} :
    statements verifyDetached (utcNow >>= f >>= g) e =
      statements verifyDetached (f (e 0).clock >>= g) e.tail := rfl

theorem statements_randomBytes {f : Bytes32 → Handler γ} :
    statements verifyDetached (randomBytes >>= f >>= g) e =
      statements verifyDetached (f (e 0).bytes >>= g) e.tail := rfl

theorem statements_verify {key m s : Bytes} {f : Bool → Handler γ} :
    statements verifyDetached (verify key m s >>= f >>= g) e =
      statements verifyDetached (f (verifyDilithiumSignature verifyDetached key m s) >>= g)
        e.tail := rfl

theorem statements_fails {s : Stmt} {f : Except DieselError s.Out → Handler γ} {m : String}
    (h : (e 0).fails = some m) : statements verifyDetached (sql s >>= f >>= g) e =
      statements verifyDetached (f (.error (.other m)) >>= g) e.tail := by
  change statements verifyDetached (.perform (.sql s) fun r ↦ f r >>= g) e = _
  simp only [statements, h]

theorem statements_executes {s : Stmt} {f : Except DieselError s.Out → Handler γ}
    (h : (e 0).fails = none) : statements verifyDetached (sql s >>= f >>= g) e =
      .perform ⟨s, (e 0).clock⟩ fun r ↦ statements verifyDetached (f r >>= g) e.tail := by
  change statements verifyDetached (.perform (.sql s) fun r ↦ f r >>= g) e = _
  simp only [statements, h]

end

/-! ## Runs of the server -/

/-- The operations that `statements` follows. -/
def Op.Followed : Op → Prop
  | .sql _ | .clock | .fillBytes | .verify _ _ _ => True
  | _ => False

/-- The environment that has `i` for the first operation. -/
def Env.cons (i : Input) (e : Env) : Env
  | 0 => i
  | n + 1 => e n

/-- Only the two threads and the clock move. -/
def OnlyThreads (t₁ t₂ : Nat) : Move Job Oracle Act → Prop
  | .step t _ => t = t₁ ∨ t = t₂
  | .act (.tick _ _) => True
  | _ => False

variable {codec : Codec} {verifyDetached : Bytes → Bytes → Bytes → Bool}

/-- What an operation of the server is to the statements of its request: nothing, or one
statement. -/
theorem statements_perform {o : Op} {k : Res o → Handler (Option α)} {ω : Oracle} {w w' : World}
    {r : Res o} (ho : o.Followed) (h : perform verifyDetached o ω w = some (r, w')) :
    ∃ i, ∀ e, (w'.db = w.db ∧ statements verifyDetached (.perform o k) (.cons i e) =
        statements verifyDetached (k r) e) ∨
      ∃ s k', statements verifyDetached (.perform o k) (.cons i e) = .perform s k' ∧
        w'.db = (execute s w.db).2 ∧
        k' (execute s w.db).1 = statements verifyDetached (k r) e := by
  have zero : Bytes32 := ⟨List.replicate 32 0, rfl⟩
  cases o with
  | sql s =>
      rcases perform_sql h with ⟨rfl, m, rfl⟩ | ⟨rfl, rfl⟩
      · exact ⟨⟨0, some m, zero⟩, fun e ↦ .inl ⟨rfl, rfl⟩⟩
      · exact ⟨⟨w.clock, none, zero⟩, fun e ↦ .inr ⟨_, _, rfl, rfl, rfl⟩⟩
  | clock =>
      obtain ⟨rfl, rfl⟩ := Prod.mk.inj (Option.some.inj h)
      exact ⟨⟨w.clock, none, zero⟩, fun e ↦ .inl ⟨rfl, rfl⟩⟩
  | fillBytes =>
      cases ω with
      | bytes b =>
          obtain ⟨rfl, rfl⟩ := Prod.mk.inj (Option.some.inj h)
          exact ⟨⟨0, none, b⟩, fun e ↦ .inl ⟨rfl, rfl⟩⟩
      | _ => exact nomatch h
  | verify key m s =>
      obtain ⟨rfl, rfl⟩ := Prod.mk.inj (Option.some.inj h)
      exact ⟨⟨0, none, zero⟩, fun e ↦ .inl ⟨rfl, rfl⟩⟩
  | _ => exact ho.elim

theorem interleaves_perform {o : Op} {k : Res o → Handler (Option α)} {ω : Oracle} {w w' : World}
    {r : Res o} {β : Type} {q : Program StmtRes β} {e : Env} {tr : List (Side × TimedStmt)}
    {a : Option α} {b : β} {db : Db} (ho : o.Followed)
    (h : perform verifyDetached o ω w = some (r, w'))
    (hrest : Interleaves execute (statements verifyDetached (k r) e) q w'.db tr a b db) :
    ∃ e tr, Interleaves execute (statements verifyDetached (.perform o k) e) q w.db tr a b db := by
  obtain ⟨i, hi⟩ := statements_perform (k := k) ho h
  rcases hi e with ⟨hdb, heq⟩ | ⟨s, k', heq, hdb, hk⟩
  · rw [hdb] at hrest
    exact ⟨.cons i e, tr, heq ▸ hrest⟩
  · rw [hdb, ← hk] at hrest
    exact ⟨.cons i e, (.left, s) :: tr, heq ▸ .left hrest⟩

/-- A run of the server in which only two threads move, both to their end, interleaves their
statements. -/
theorem interleaves_of_run {t₁ t₂ : Nat} {c c' : State} {ms : Moves} {j₁ j₂ : Job}
    {p q : Handler (Option Reply)} {a b : Option Reply} (hne : t₁ ≠ t₂)
    (hrun : (server codec verifyDetached).run c ms = some c') (hms : ∀ m ∈ ms, OnlyThreads t₁ t₂ m)
    (h₁ : c.pool[t₁]? = some ⟨j₁, p⟩) (h₂ : c.pool[t₂]? = some ⟨j₂, q⟩)
    (hp : p.Only Op.Followed) (hq : q.Only Op.Followed)
    (h₁' : c'.pool[t₁]? = some ⟨j₁, .ret a⟩) (h₂' : c'.pool[t₂]? = some ⟨j₂, .ret b⟩) :
    ∃ e₁ e₂ tr, Interleaves execute (statements verifyDetached p e₁)
      (statements verifyDetached q e₂) c.world.db tr a b c'.world.db := by
  induction ms generalizing c p q with
  | nil =>
      obtain rfl := Option.some.inj hrun
      obtain ⟨-, rfl⟩ := Thread.mk.inj (Option.some.inj (h₁.symm.trans h₁'))
      obtain ⟨-, rfl⟩ := Thread.mk.inj (Option.some.inj (h₂.symm.trans h₂'))
      have e : Env := fun _ ↦ ⟨0, none, ⟨List.replicate 32 0, rfl⟩⟩
      exact ⟨e, e, [], .done⟩
  | cons m ms ih =>
      obtain ⟨d, hd, hrest⟩ := Machine.run_cons.mp hrun
      have hm := hms m List.mem_cons_self
      have hms' : ∀ m ∈ ms, OnlyThreads t₁ t₂ m := fun m' hm' ↦ hms m' (List.mem_cons_of_mem _ hm')
      cases Machine.step_of_next hd with
      | spawn j => exact hm.elim
      | @act act w ha =>
          cases act with
          | tick clock instant =>
              obtain ⟨e₁, e₂, tr, h⟩ := ih hrest hms' h₁ h₂ hp hq
              have hdb : w.db = c.world.db := by
                simp only [server, ZenthDht.act] at ha
                split at ha
                · exact (Option.some.inj ha) ▸ rfl
                · cases ha
              exact ⟨e₁, e₂, tr, hdb ▸ h⟩
          | _ => exact hm.elim
      | @step t ω j o k r w ht hperf =>
          have hlt : t < c.pool.length := (List.getElem?_eq_some_iff.mp ht).1
          rcases hm with rfl | rfl
          · obtain ⟨rfl, rfl⟩ := Thread.mk.inj (Option.some.inj (h₁.symm.trans ht))
            obtain ⟨e₁, e₂, tr, h⟩ := ih hrest hms' (List.getElem?_set_self hlt)
              ((List.getElem?_set_ne hne).trans h₂) (hp.2 r) hq
            obtain ⟨e₁, tr, h⟩ := interleaves_perform hp.1 hperf h
            exact ⟨e₁, e₂, tr, h⟩
          · obtain ⟨rfl, rfl⟩ := Thread.mk.inj (Option.some.inj (h₂.symm.trans ht))
            obtain ⟨e₁, e₂, tr, h⟩ := ih hrest hms' ((List.getElem?_set_ne hne.symm).trans h₁)
              (List.getElem?_set_self hlt) hp (hq.2 r)
            obtain ⟨e₂, tr, h⟩ := interleaves_perform hq.1 hperf h.symm
            exact ⟨e₁, e₂, _, h.symm⟩

end ZenthDht
