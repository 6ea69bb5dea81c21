import ZenthDht.Safety.Lifetimes
import ZenthDht.Safety.Signatures
import ZenthDht.Spec.Scripts

/-!
# What a request costs, and that it ends

No request holds another one up: there is no lock that a handler keeps while it waits, and no loop
that goes to the database.  So a request is a few operations, whatever it carries and whatever the
others do (`request_work`), and it can be carried to its end by its own steps alone
(`request_finishes`).  The one request that does not end is a SEND_MESSAGE whose lifetime panics.
-/

namespace ZenthDht

open Conc

variable {codec : Codec} {verifyDetached : Bytes → Bytes → Bytes → Bool}
variable {c : State} {ms : Moves} {w : World} {t : Nat} {call : Call}

/-! ## The work of a request -/

/-- A SQL statement. -/
def OpKind.isSql : OpKind → Bool
  | .read | .write => true
  | _ => false

/-- What a request that has done `past` has cost. -/
structure Work (call : Call) (past : Past) : Prop where
  script : (past.map fun e ↦ e.1.kind).Sublist call.script
  operations : past.length ≤ 11
  statements : past.countP (fun e ↦ e.1.kind.isSql) ≤ 8
  verifications : past.countP (fun e ↦ e.1.kind = .verify) ≤ 1

theorem Call.script_length (call : Call) : call.script.length ≤ 11 := by
  cases call with
  | login req =>
      simp only [script]
      cases req.requestChallenge with
      | true => decide
      | false => decide
  | _ => exact Nat.le_of_ble_eq_true rfl

theorem Call.script_statements (call : Call) : call.script.countP OpKind.isSql ≤ 8 := by
  cases call with
  | login req =>
      simp only [script]
      cases req.requestChallenge with
      | true => decide
      | false => decide
  | _ => exact Nat.le_of_ble_eq_true rfl

theorem Call.script_verifications (call : Call) :
    call.script.countP (fun k ↦ k = OpKind.verify) ≤ 1 := by
  cases call with
  | login req =>
      simp only [script]
      cases req.requestChallenge with
      | true => decide
      | false => decide
  | _ => exact Nat.le_of_ble_eq_true rfl

theorem code_keepsTo (codec : Codec) (call : Call) :
    KeepsTo call.script (code codec (.request call)) := (processCall_keepsTo call).map _

/-- What the script bounds, a request is bounded by. -/
theorem work_of_script {past : Past} (h : (past.map fun e ↦ e.1.kind).Sublist call.script) :
    Work call past where
  script := h
  operations := by
    have hlen := h.length_le
    rw [List.length_map] at hlen
    exact hlen.trans call.script_length
  statements := by
    have hcount := h.countP_le (p := OpKind.isSql)
    rw [List.countP_map] at hcount
    exact hcount.trans call.script_statements
  verifications := by
    have hcount := h.countP_le (p := fun k ↦ k = OpKind.verify)
    rw [List.countP_map] at hcount
    exact hcount.trans call.script_verifications

/-- **A request is a few operations.**  In every run, what a request has done by any moment is, in
order, part of the script of its method: eleven operations at most, eight statements at most, and
no more than one signature. -/
theorem request_work (h : (server codec verifyDetached).run (.start w) ms = some c)
    {rest : Handler (Option Reply)} (ht : c.pool[t]? = some ⟨.request call, rest⟩) :
    Work call (past t c.trace) := by
  obtain ⟨left, -, hsub⟩ := Machine.follows_of_run h ht (code_keepsTo codec call)
  exact work_of_script ((List.sublist_append_left _ _).trans hsub)

open Sample in
/-- The DELETE of an account that has nothing. -/
theorem request_work_reuseRun : ∃ c : State, final zeroSigned reuseRun = some c ∧
    Work (.delete ⟨word 0, signature, 0⟩) (past 2 c.trace) ∧ (past 2 c.trace).length = 10 := by
  have hview : ((final zeroSigned reuseRun).map fun c ↦
      ((c.pool[2]?).map Thread.job, (past 2 c.trace).length)) =
      some (some (.request (.delete ⟨word 0, signature, 0⟩)), 10) := by decide +kernel
  obtain ⟨c, hc, hview⟩ := Option.map_eq_some_iff.mp hview
  obtain ⟨hjob, hlen⟩ := Prod.mk.inj hview
  obtain ⟨⟨j, rest⟩, hth, rfl⟩ := Option.map_eq_some_iff.mp hjob
  exact ⟨c, hc, request_work hc hth, hlen⟩

/-! ## The end of a request -/

theorem Call.other_notMem_script (call : Call) : OpKind.other ∉ call.script := by
  cases call with
  | login req =>
      simp only [script]
      cases req.requestChallenge with
      | true => decide
      | false => decide
  | _ => exact of_decide_eq_true rfl

/-- Only SEND_MESSAGE may panic. -/
theorem Call.panic_mem_script (h : OpKind.panic ∈ call.script) : ∃ env, call = .sendMessage env := by
  cases call with
  | sendMessage env => exact ⟨env, rfl⟩
  | login req =>
      simp only [script] at h
      cases hreq : req.requestChallenge with
      | true => rw [hreq] at h; exact absurd h (by decide)
      | false => rw [hreq] at h; exact absurd h (by decide)
  | _ => exact absurd h (of_decide_eq_true rfl)

/-- Every operation of a request but a panic can be performed. -/
theorem enabled_of_kind {o : Op} (ho : o.kind ≠ .other) :
    o = .panic ∨ ∀ w, ∃ ω r w', (server codec verifyDetached).perform o ω w = some (r, w') := by
  cases o with
  | panic => exact .inl rfl
  | fillBytes => exact .inr fun w ↦ ⟨.bytes ⟨List.replicate 32 0, by simp⟩, _, _, rfl⟩
  | getManifest => exact .inr fun w ↦ ⟨.manifest (.error ""), _, _, rfl⟩
  | getRange version start stop => exact .inr fun w ↦ ⟨.range (.error ""), _, _, rfl⟩
  | sql s => exact .inr fun w ↦ ⟨.none, _, _, rfl⟩
  | clock => exact .inr fun w ↦ ⟨.none, _, _, rfl⟩
  | verify k m g => exact .inr fun w ↦ ⟨.none, _, _, rfl⟩
  | limiter l key => exact .inr fun w ↦ ⟨.none, _, _, rfl⟩
  | unregister u => exact .inr fun w ↦ ⟨.none, _, _, rfl⟩
  | sendToUser u n => exact .inr fun w ↦ ⟨.none, _, _, rfl⟩
  | spawnSend u n => exact .inr fun w ↦ ⟨.none, _, _, rfl⟩
  | _ => exact absurd rfl ho

/-- A request that returns has a reply. -/
theorem code_replies (call : Call) : (code codec (.request call)).Obeys (fun _ _ ↦ True)
    (fun _ reply ↦ ∃ r, reply = some r) [] := by
  have hcall : (processCall codec call).Obeys (fun _ _ ↦ True) (fun _ _ ↦ True) [] :=
    Program.obeys_of_forall _ (fun _ _ ↦ trivial) fun _ _ ↦ trivial
  exact hcall.bind fun past r _ ↦ ⟨r, rfl⟩

/-- **A request ends.**  In every state of every run, whatever the others are doing, a request that
is running can be carried to its end by steps of its own, eleven at most with those it has taken.
Then it is answered; or it is a SEND_MESSAGE, and its lifetime is one that cannot be added to the
clock. -/
theorem request_finishes (hc : Reachable codec verifyDetached c) (hruns : Runs c t (.request call)) :
    ∃ (ωs : List Oracle) (c' : State), ωs.length + (past t c.trace).length ≤ 11 ∧
      (server codec verifyDetached).run c (ωs.map (.step t)) = some c' ∧
      ((∃ reply, c'.answered t = some (.request call, reply)) ∨
        ∃ env now, call = .sendMessage env ∧ c'.performs t = some (.request call, .panic) ∧
          lastReading (past t c'.trace) = some now ∧ expiry now env.sequenceNumber = none) := by
  obtain ⟨rest, ht⟩ := hruns
  obtain ⟨clock, instant, ms, h⟩ := hc
  obtain ⟨left, hleft, hsub⟩ := Machine.follows_of_run h ht (code_keepsTo codec call)
  have hlen : (past t c.trace).length + left.length ≤ 11 := by
    have hle := hsub.length_le
    rw [List.length_append, List.length_map] at hle
    exact hle.trans call.script_length
  have henabled : ∀ o : Op, o.kind ∈ left → o = .panic ∨
      ∀ w, ∃ ω r w', (server codec verifyDetached).perform o ω w = some (r, w') := by
    refine fun o ho ↦ enabled_of_kind fun hkind ↦ ?_
    have hmem : o.kind ∈ call.script := hsub.subset (List.mem_append_right _ ho)
    rw [hkind] at hmem
    exact call.other_notMem_script hmem
  obtain ⟨ωs, c', hωs, hrun, hover⟩ := Machine.finishes hleft henabled ht
  refine ⟨ωs, c', by omega, hrun, ?_⟩
  have hc' : Reachable codec verifyDetached c' := Reachable.run ⟨clock, instant, ms, h⟩ hrun
  rcases hover with ⟨a, ha⟩ | ⟨_, k, hk, rfl⟩
  · obtain ⟨clock', instant', ms', h'⟩ := hc'
    have hreaches := (Machine.traced_of_run h').1 t _ ha
    obtain ⟨r, rfl⟩ := hreaches.obeys (code_replies call)
    exact .inl ⟨r, answered_iff.mpr ha⟩
  · -- it stands before a panic: the method is SEND_MESSAGE
    obtain ⟨clock', instant', ms', h'⟩ := hc'
    obtain ⟨left', ⟨rest', hrest', -⟩, hsub'⟩ :=
      Machine.follows_of_run h' hk (code_keepsTo codec call)
    have hmem : OpKind.panic ∈ call.script :=
      hsub'.subset (List.mem_append_right _ (hrest'.subset List.mem_cons_self))
    obtain ⟨env, rfl⟩ := Call.panic_mem_script hmem
    obtain ⟨now, hnow, hnone⟩ : LifetimeOrder env (past t c'.trace) .panic :=
      Reachable.request_guard ⟨clock', instant', ms', h'⟩ (sendMessage_expiry env) hk
    exact .inr ⟨env, now, rfl, performs_iff.mpr ⟨k, hk⟩, hnow, hnone⟩

open Sample in
/-- A LOOKUP_USER that has just arrived. -/
theorem request_finishes_lookup : ∃ (c c' : State) (ωs : List Oracle) (reply : Reply),
    final [] (registers 0 1 ++ [.spawn (.request (.lookupUser ⟨word 1, word 1, signature, 0⟩))]) =
      some c ∧ (system []).run c (ωs.map (.step 1)) = some c' ∧
    c'.answered 1 = some (.request (.lookupUser ⟨word 1, word 1, signature, 0⟩), reply) := by
  have hview : ((final [] (registers 0 1 ++
      [.spawn (.request (.lookupUser ⟨word 1, word 1, signature, 0⟩))])).map fun c ↦
      (c.pool[1]?).map Thread.job) =
      some (some (.request (.lookupUser ⟨word 1, word 1, signature, 0⟩))) := by decide +kernel
  obtain ⟨c, hc, hjob⟩ := Option.map_eq_some_iff.mp hview
  obtain ⟨⟨j, rest⟩, hth, rfl⟩ := Option.map_eq_some_iff.mp hjob
  obtain ⟨ωs, c', -, hrun, ⟨reply, hans⟩ | ⟨env, now, hsend, -⟩⟩ :=
    request_finishes ⟨0, 0, _, hc⟩ ⟨rest, hth⟩
  · exact ⟨c, c', ωs, reply, hc, hrun, hans⟩
  · exact nomatch hsend

end ZenthDht
