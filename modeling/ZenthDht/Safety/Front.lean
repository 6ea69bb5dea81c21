import ZenthDht.Spec.Front

/-!
# What the front does, the server does

Every run of the front is a run of the server in which the calls have threads of their own: the
database, the rate limiters, the connections and the clock are the same all along, and so are the
operations, their order, and whose they are.  So whatever is true of every state of the server is
true of the front, and an answer to a POST is the reply of one of the server's threads.
-/

namespace ZenthDht

open Conc

variable {wire : Wire} {verifyDetached : Bytes → Bytes → Bytes → Bool}
variable {w : World} {ms' : FrontMoves} {c' : FrontState} {t : Nat}

/-! ## Refinement -/

/-- To a run of the front there is the one of the server that stands for it. -/
theorem front_matches (h : (front wire verifyDetached).run (.start w) ms' = some c') :
    ∃ ms c owner, (server wire.codec verifyDetached).run (.start w) ms = some c ∧
      Matches (server wire.codec verifyDetached) (front wire verifyDetached) serverEvent frontEvent
        (frontPost wire) c c' owner :=
  Machine.simulates (front_splits wire verifyDetached) rfl h

/-- **The front refines the server.**  Whatever run the front makes, the server makes one that
leads to the same world by the same operations in the same order.  Each thread of the server belongs
to one of the front, as its own thread or as a call that it makes: what it does it does for its
owner, and what is left of a thread of the front is what is left of its own thread and of its
present call. -/
theorem front_refines_server (h : (front wire verifyDetached).run (.start w) ms' = some c') :
    ∃ ms c, (server wire.codec verifyDetached).run (.start w) ms = some c ∧ c.world = c'.world ∧
      observed serverEvent c.trace = observed frontEvent c'.trace ∧
      ∃ owner : Nat → Nat × Bool,
        attributed (fun i ↦ (owner i).1) serverEvent c.trace = attributed id frontEvent c'.trace ∧
        ∀ t th, c'.pool[t]? = some th → Attends (server wire.codec verifyDetached)
          (front wire verifyDetached) serverEvent frontEvent (frontPost wire th.job) c owner t
          th.rest := by
  obtain ⟨ms, c, owner, hrun, hmatch⟩ := front_matches h
  exact ⟨ms, c, hrun, hmatch.world, hmatch.observed, owner, hmatch.seen, hmatch.threads⟩

open Sample in
theorem front_refines_server_postRun : ∃ c', frontFinal [] postRun = some c' ∧
    c'.world.db.users.length = 1 ∧ ∃ ms c,
      (server Sample.wire.codec (Sample.verify [])).run (.start (.initial 0 0)) ms = some c ∧
      c.world = c'.world ∧ observed serverEvent c.trace = observed frontEvent c'.trace ∧
      ∃ owner : Nat → Nat × Bool,
        attributed (fun i ↦ (owner i).1) serverEvent c.trace =
          attributed id frontEvent c'.trace := by
  have hrun : ((frontFinal [] postRun).map fun c' ↦ c'.world.db.users.length) = some 1 := by
    decide +kernel
  obtain ⟨c', hc', hlen⟩ := Option.map_eq_some_iff.mp hrun
  obtain ⟨ms, c, hms, hworld, hseen, owner, howner, -⟩ := front_refines_server hc'
  exact ⟨c', hc', hlen, ms, c, hms, hworld, hseen, owner, howner⟩

/-! ## Answers to a POST -/

/-- The last thing a POST does is to stamp its answer; a body that does not decode leaves it
nothing else to do. -/
theorem handlePost_stamps (body : Bytes) :
    (handlePost wire body).Obeys (fun _ _ ↦ True) (fun past' a ↦
      (∃ before, past' = before ++ [⟨.stamp, a.response.timestamp⟩]) ∧
      ∀ e, wire.dhtRequest body = .error e → past' = [⟨.stamp, a.response.timestamp⟩]) [] := by
  unfold handlePost
  cases hdecode : wire.dhtRequest body with
  | error e => exact ⟨trivial, fun s ↦ ⟨⟨[], rfl⟩, fun _ _ ↦ rfl⟩⟩
  | ok req =>
      dsimp only
      rw [processRequest, Program.bind_assoc]
      refine Program.Obeys.bind_any (Program.obeys_of_forall _ (fun _ _ ↦ trivial)
        fun _ _ ↦ trivial) fun before reply ↦ ?_
      refine ⟨trivial, fun s ↦ ⟨⟨before, rfl⟩, ?_⟩⟩
      rintro e ⟨⟩

/-- What the history of the front shows of an answer to a POST. -/
theorem post_stamped (h : (front wire verifyDetached).run (.start w) ms' = some c') {body : Bytes}
    {a : HttpAnswer} (ht : c'.pool[t]? = some ⟨.post body, .ret (some a)⟩) :
    (t, ⟨.stamp, a.response.timestamp⟩) ∈ c'.trace ∧
    ∀ e, wire.dhtRequest body = .error e → past t c'.trace = [⟨.stamp, a.response.timestamp⟩] := by
  have hcode : (frontCode wire (.post body)).Obeys (fun _ _ ↦ True) (fun past' r ↦ ∀ a, r = some a →
      (∃ before, past' = before ++ [⟨.stamp, a.response.timestamp⟩]) ∧
      ∀ e, wire.dhtRequest body = .error e → past' = [⟨.stamp, a.response.timestamp⟩]) [] := by
    refine (handlePost_stamps body).bind fun past' a h ↦ ?_
    rintro _ ⟨⟩
    exact h
  obtain ⟨⟨before, hpast⟩, hmalformed⟩ :=
    ((Machine.traced_of_run h).1 t _ ht).obeys hcode a rfl
  exact ⟨mem_past.mp (by rw [hpast]; simp), hmalformed⟩

/-- What the answer `a` to a POST is: it refuses a body that does not decode, or it wraps the reply
of a thread of the server, one of those of `owned`, which carries out the request of the body. -/
structure Replied (wire : Wire) (c : State) (owned : Nat → Prop) (body : Bytes) (a : HttpAnswer) :
    Prop where
  malformed : ∀ e, wire.dhtRequest body = .error e →
    a = ⟨.badRequest, errorResponse s!"Error decodage: {e}" a.response.timestamp⟩
  replied : ∀ req, wire.dhtRequest body = .ok req → ∃ i reply, owned i ∧
    c.pool[i]? = some ⟨wire.job req, .ret (some reply)⟩ ∧
    a = ⟨if reply.success then .ok else .badRequest,
      wire.response req reply a.response.timestamp⟩

theorem replied_of_answered {c : State} (owned : Nat → Prop) {body : Bytes}
    {r : Option HttpAnswer} {calls : List (Job × Option Reply)}
    (h : PostAnswered wire body r calls)
    (hcalls : ∀ x ∈ calls, ∃ i, owned i ∧ c.pool[i]? = some ⟨x.1, .ret x.2⟩) :
    ∃ a, r = some a ∧ Replied wire c owned body a := by
  cases h with
  | malformed hdecode =>
      refine ⟨_, rfl, ⟨?_, ?_⟩⟩
      · intro e he
        obtain rfl := Except.error.inj (hdecode.symm.trans he)
        rfl
      · intro req hreq
        cases hdecode.symm.trans hreq
  | replied hdecode =>
      obtain ⟨i, howned, hi⟩ := hcalls _ (List.mem_singleton_self _)
      refine ⟨_, rfl, ⟨?_, ?_⟩⟩
      · intro e he
        cases hdecode.symm.trans he
      · intro req hreq
        obtain rfl := Except.ok.inj (hdecode.symm.trans hreq)
        exact ⟨i, _, howned, hi, rfl⟩

/-- **A POST is answered by a request of the server.**  Whatever run the front makes, the server
makes one over the same world, by the same operations in the same order, such that each answered POST
has a thread of the server of its own whose reply the answer wraps, under the method and the request
id of the body, with status 200 exactly for a success; a body that does not decode is answered 400
without a look at the database.  The answer is stamped by a reading of the clock. -/
theorem posts_replied (h : (front wire verifyDetached).run (.start w) ms' = some c') :
    ∃ ms c, (server wire.codec verifyDetached).run (.start w) ms = some c ∧ c.world = c'.world ∧
      observed serverEvent c.trace = observed frontEvent c'.trace ∧
      ∃ owner : Nat → Nat,
        attributed owner serverEvent c.trace = attributed id frontEvent c'.trace ∧
        ∀ t body r, c'.pool[t]? = some ⟨.post body, .ret r⟩ →
          ∃ a, r = some a ∧ Replied wire c (fun i ↦ owner i = t) body a ∧
            (t, ⟨.stamp, a.response.timestamp⟩) ∈ c'.trace ∧
            ∀ e, wire.dhtRequest body = .error e →
              past t c'.trace = [⟨.stamp, a.response.timestamp⟩] := by
  obtain ⟨ms, c, owner, hrun, hmatch⟩ := front_matches h
  refine ⟨ms, c, hrun, hmatch.world, hmatch.observed, fun i ↦ (owner i).1, hmatch.seen,
    fun t body r ht ↦ ?_⟩
  obtain ⟨calls, hpost, hcalls⟩ := (hmatch.threads t _ ht).answered
  obtain ⟨a, rfl, hreplied⟩ := replied_of_answered (fun i ↦ (owner i).1 = t) hpost fun x hx ↦ by
    obtain ⟨i, ho, hi⟩ := hcalls x hx
    exact ⟨i, congrArg Prod.fst ho, hi⟩
  exact ⟨a, rfl, hreplied, post_stamped h ht⟩

open Sample in
theorem posts_replied_postRun : ∃ c' a b, frontFinal [] postRun = some c' ∧
    c'.answered 0 = some (.post [], a) ∧ a.status = .badRequest ∧
    c'.answered 1 = some (.post [1, 1], b) ∧ b.status = .ok ∧
    past 0 c'.trace = [⟨.stamp, a.response.timestamp⟩] ∧
    ∃ ms c, (server Sample.wire.codec (Sample.verify [])).run (.start (.initial 0 0)) ms = some c ∧
      c.world = c'.world ∧ observed serverEvent c.trace = observed frontEvent c'.trace ∧
      ∃ owner : Nat → Nat, attributed owner serverEvent c.trace = attributed id frontEvent c'.trace ∧
        Replied Sample.wire c (fun i ↦ owner i = 1) [1, 1] b := by
  have hrun : ((frontFinal [] postRun).map fun c' ↦
      ((c'.answered 0).map fun x ↦ (x.1, x.2.status), (c'.answered 1).map fun x ↦ (x.1, x.2.status)))
      = some (some (.post [], .badRequest), some (.post [1, 1], .ok)) := by decide +kernel
  obtain ⟨c', hc', hfacts⟩ := Option.map_eq_some_iff.mp hrun
  obtain ⟨ha, hb⟩ := Prod.mk.inj hfacts
  obtain ⟨⟨ja, a⟩, ha, haeq⟩ := Option.map_eq_some_iff.mp ha
  obtain ⟨⟨jb, b⟩, hb, hbeq⟩ := Option.map_eq_some_iff.mp hb
  obtain ⟨rfl, hstatus⟩ := Prod.mk.inj haeq
  obtain ⟨rfl, hstatus'⟩ := Prod.mk.inj hbeq
  obtain ⟨ms, c, hms, hworld, hseen, owner, howner, hposts⟩ := posts_replied hc'
  obtain ⟨a', ha', -, -, hmalformed⟩ := hposts 0 _ _ (frontAnswered_iff.mp ha)
  obtain ⟨b', hb', hreplied, -⟩ := hposts 1 _ _ (frontAnswered_iff.mp hb)
  obtain rfl := Option.some.inj ha'
  obtain rfl := Option.some.inj hb'
  exact ⟨c', a, b, hc', ha, hstatus, hb, hstatus', hmalformed "empty" rfl, ms, c, hms, hworld,
    hseen, owner, howner, hreplied⟩

end ZenthDht
