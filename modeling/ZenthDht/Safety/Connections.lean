import ZenthDht.Safety.Sessions

/-!
# Several connections of one user

All connections of a user share one channel, whose only sender is the entry of the user in the
map, and each of them removes the entry when it ends.  So a connection that ends cuts the others
off: the user is no longer connected, nothing is sent to them any more, and their receivers
report `Closed` (`connection_lost`).

It goes wrong exactly then: the live connections of every user are served in all states of a run
if and only if no entry is removed while a connection of its user is live
(`connections_coexist_iff`).
-/

namespace ZenthDht

open Conc

/-! ## Live connections -/

/-- The user a connection is registered for. -/
def registeredUser : Event Res → Option Bytes
  | ⟨.register u, _⟩ => some u
  | _ => none

/-- The connection's own socket has ended: it was closed, or a send on it has failed. -/
def endsSocket : Event Res → Bool
  | ⟨.select _, .socket .close⟩ | ⟨.select _, .socket .error⟩ | ⟨.select _, .socket .eof⟩ => true
  | ⟨.socketSend _, sent⟩ => !sent
  | _ => false

/-- The connection's receiver was told that its channel is closed. -/
def receiverClosed : Event Res → Bool
  | ⟨.select _, .broadcast .closed _⟩ => true
  | _ => false

/-- Thread `t` is a live connection of `u`: it is registered and its own socket has not ended. -/
def Live (c : State) (t : Nat) (u : Bytes) : Prop :=
  (∃ e ∈ c.trace, e.1 = t ∧ registeredUser e.2 = some u) ∧
    ∀ e ∈ c.trace, e.1 = t → endsSocket e.2 = false

instance (c : State) (t : Nat) (u : Bytes) : Decidable (Live c t u) :=
  inferInstanceAs (Decidable (_ ∧ _))

/-- Everything that was sent on a channel. -/
def ConnectionManager.logOf (cm : ConnectionManager) (ch : Nat) : List BroadcastMessage :=
  (cm.channels[ch]?.map Channel.log).getD []

/-- What a live connection `t` of `u` is promised: `u` is connected, whatever is sent to `u` is
put into the channel of `t`, and the receiver of `t` has not been closed. -/
structure Served (c : State) (t : Nat) (u : Bytes) : Prop where
  connected : c.world.connections.isConnected u = true
  enqueued : ∀ n rx, (t, ⟨.register u, rx⟩) ∈ c.trace →
    (c.world.connections.sendToUser u n).1 = true ∧
    (c.world.connections.sendToUser u n).2.logOf rx.channel =
      c.world.connections.logOf rx.channel ++ [⟨u, n⟩]
  notClosed : ∀ rx next, (t, ⟨.select rx, .broadcast .closed next⟩) ∉ c.trace

/-- All live connections are served. -/
def Coexist (c : State) : Prop := ∀ t u, Live c t u → Served c t u

/-- What has to hold of a move: the entry of a user is not removed while a connection of the
user is live. -/
def RemovesLast (c : State) : Move Job Oracle Act → Prop
  | .step t _ =>
    match c.pool[t]? with
    | some ⟨_, .perform (.unregister u) _⟩ => ∀ t' < c.pool.length, ¬ Live c t' u
    | _ => True
  | _ => True

/-- The user whose entry an operation removes. -/
def Op.unregisters : Op → Option Bytes
  | .unregister u => some u
  | _ => none

theorem removesLast_step {c : State} {t : Nat} {ω : Oracle} : RemovesLast c (.step t ω) ↔
    ∀ u ∈ c.about Op.unregisters t, ∀ t' < c.pool.length, ¬ Live c t' u := by
  dsimp only [RemovesLast]
  split
  next hp => simp [State.about, State.performs, hp, Op.unregisters]
  next hno =>
    refine iff_of_true trivial fun u h ↦ ?_
    obtain ⟨job, o, k, hp, ho⟩ := about_iff.mp h
    unfold Op.unregisters at ho
    split at ho
    · exact (hno _ _ _ hp).elim
    · cases ho

instance (c : State) : (m : Move Job Oracle Act) → Decidable (RemovesLast c m)
  | .step _ _ => decidable_of_iff _ removesLast_step.symm
  | .spawn _ | .act _ => inferInstanceAs (Decidable True)

theorem live_iff {c : State} {t : Nat} {u : Bytes} : Live c t u ↔
    (∃ rx, (t, ⟨.register u, rx⟩) ∈ c.trace) ∧ ∀ e, (t, e) ∈ c.trace → endsSocket e = false := by
  refine and_congr ⟨?_, ?_⟩ ⟨fun h e he ↦ h (t, e) he rfl, ?_⟩
  · rintro ⟨⟨t, o, r⟩, he, rfl, hu⟩
    unfold registeredUser at hu
    split at hu
    next heq =>
      obtain rfl := Option.some.inj hu
      obtain ⟨rfl, heq⟩ := Sigma.mk.inj heq
      exact ⟨_, eq_of_heq heq ▸ he⟩
    · exact nomatch hu
  · rintro ⟨rx, he⟩
    exact ⟨_, he, rfl, rfl⟩
  · rintro h ⟨t', e⟩ he rfl
    exact h e he

/-! ## The connection manager -/

namespace ConnectionManager

variable {cm : ConnectionManager} {u u' : Bytes} {n : WsNotification} {rx : Receiver} {ch : Nat}

/-- Every entry has a channel of its own, and it is open. -/
structure WellFormed (cm : ConnectionManager) : Prop where
  isOpen : ∀ {u ch}, cm.connections u = some ch →
    ∃ x, cm.channels[ch]? = some x ∧ x.isOpen = true
  injective : ∀ {u u' ch}, cm.connections u = some ch → cm.connections u' = some ch → u = u'

/-- A change of one channel that does not close it. -/
theorem WellFormed.modify (h : cm.WellFormed) (ch : Nat) {f : Channel → Channel}
    (hf : ∀ x, (f x).isOpen = x.isOpen) :
    WellFormed { cm with channels := cm.channels.modify ch f } := by
  refine ⟨fun {u ch'} hu ↦ ?_, h.injective⟩
  obtain ⟨x, hx, hopen⟩ := h.isOpen hu
  simp only [List.getElem?_modify, hx, Option.map_eq_map, Option.map_some, Option.some.injEq,
    exists_eq_left']
  split
  · rw [hf, hopen]
  · exact hopen

theorem WellFormed.register (h : cm.WellFormed) (u : Bytes) : (cm.register u).2.WellFormed := by
  unfold ConnectionManager.register
  split
  next ch hu => exact h.modify ch fun _ ↦ rfl
  next hu =>
    have hlt {u' : Bytes} {ch : Nat} (hu' : cm.connections u' = some ch) :
        ch < cm.channels.length := by
      obtain ⟨x, hx, -⟩ := h.isOpen hu'
      exact (List.getElem?_eq_some_iff.mp hx).1
    refine ⟨fun {u' ch} hu' ↦ ?_, fun {u₁ u₂ ch} h₁ h₂ ↦ ?_⟩
    · by_cases e : u' = u
      · subst e
        simp only [Function.update_self, Option.some.injEq] at hu'
        subst hu'
        exact ⟨{}, by simp, rfl⟩
      · simp only [Function.update_of_ne e] at hu'
        obtain ⟨x, hx, hopen⟩ := h.isOpen hu'
        exact ⟨x, by rw [List.getElem?_append_left (hlt hu'), hx], hopen⟩
    · by_cases e₁ : u₁ = u <;> by_cases e₂ : u₂ = u
      · rw [e₁, e₂]
      · subst e₁
        simp only [Function.update_self, Function.update_of_ne e₂, Option.some.injEq] at h₁ h₂
        have := hlt h₂
        omega
      · subst e₂
        simp only [Function.update_self, Function.update_of_ne e₁, Option.some.injEq] at h₁ h₂
        have := hlt h₁
        omega
      · simp only [Function.update_of_ne e₁, Function.update_of_ne e₂] at h₁ h₂
        exact h.injective h₁ h₂

theorem WellFormed.unregister (h : cm.WellFormed) (u : Bytes) : (cm.unregister u).WellFormed := by
  unfold ConnectionManager.unregister
  split
  next ch hu =>
    refine ⟨fun {u' ch'} hu' ↦ ?_, fun {u₁ u₂ ch} h₁ h₂ ↦ ?_⟩
    · have e : u' ≠ u := by
        rintro rfl
        simp at hu'
      simp only [Function.update_of_ne e] at hu'
      have hne : ch ≠ ch' := by
        rintro rfl
        exact e (h.injective hu' hu)
      obtain ⟨x, hx, hopen⟩ := h.isOpen hu'
      exact ⟨x, by simp [hx, hne], hopen⟩
    · have hold {u' : Bytes} {ch : Nat}
          (h' : Function.update cm.connections u none u' = some ch) :
          cm.connections u' = some ch := by
        by_cases e : u' = u
        · subst e
          simp at h'
        · rwa [Function.update_of_ne e] at h'
      exact h.injective (hold h₁) (hold h₂)
  · exact h

theorem WellFormed.sendToUser (h : cm.WellFormed) (u : Bytes) (n : WsNotification) :
    (cm.sendToUser u n).2.WellFormed := by
  unfold ConnectionManager.sendToUser
  repeat' split
  · exact h
  · exact h.modify _ fun _ ↦ rfl
  · exact h

theorem WellFormed.dropReceiver (h : cm.WellFormed) (rx : Receiver) :
    (cm.dropReceiver rx).WellFormed := h.modify _ fun _ ↦ rfl

@[simp] theorem connections_sendToUser : (cm.sendToUser u n).2.connections = cm.connections := by
  unfold ConnectionManager.sendToUser
  repeat' split
  all_goals rfl

@[simp] theorem connections_dropReceiver :
    (cm.dropReceiver rx).connections = cm.connections := rfl

@[simp] theorem connections_unregister :
    (cm.unregister u).connections = Function.update cm.connections u none := by
  unfold ConnectionManager.unregister
  split
  · rfl
  next hu =>
    rw [← hu, Function.update_eq_self]

/-- The entry of a user is there after a registration, and it is the channel of the receiver. -/
theorem connections_register_self :
    (cm.register u).2.connections u = some (cm.register u).1.channel := by
  unfold ConnectionManager.register
  split
  next hu => exact hu
  · simp

/-- A registration keeps the entries that are there. -/
theorem connections_register (h : cm.connections u' = some ch) :
    (cm.register u).2.connections u' = some ch := by
  unfold ConnectionManager.register
  split
  · exact h
  next hu =>
    have e : u' ≠ u := by
      rintro rfl
      rw [hu] at h
      exact nomatch h
    simp only [Function.update_of_ne e, h]

/-- The receiver of an open channel is not told that it is closed. -/
theorem recv_ne_closed {x : Channel} (hx : cm.channels[rx.channel]? = some x)
    (hopen : x.isOpen = true) (next : Nat) : cm.recv rx ≠ some (.closed, next) := by
  unfold ConnectionManager.recv
  simp only [hx, hopen, if_true]
  split
  · simp
  · split <;> simp

/-- The number of receivers of a channel. -/
def receiversOf (cm : ConnectionManager) (ch : Nat) : Nat :=
  (cm.channels[ch]?.map Channel.receivers).getD 0

theorem receiversOf_modify (ch ch' : Nat) (f : Channel → Channel)
    (hf : ∀ x, (f x).receivers = x.receivers) :
    receiversOf { cm with channels := cm.channels.modify ch f } ch' = cm.receiversOf ch' := by
  unfold receiversOf
  rw [List.getElem?_modify]
  cases cm.channels[ch']? with
  | none => rfl
  | some x =>
      simp only [Option.map_eq_map, Option.map_some, Option.getD_some]
      split
      · exact hf x
      · rfl

theorem receiversOf_sendToUser : (cm.sendToUser u n).2.receiversOf ch = cm.receiversOf ch := by
  unfold ConnectionManager.sendToUser
  repeat' split
  · rfl
  · exact receiversOf_modify _ _ _ fun _ ↦ rfl
  · rfl

theorem receiversOf_unregister : (cm.unregister u).receiversOf ch = cm.receiversOf ch := by
  unfold ConnectionManager.unregister
  split
  · exact receiversOf_modify _ _ _ fun _ ↦ rfl
  · rfl

theorem receiversOf_dropReceiver : (cm.dropReceiver rx).receiversOf ch =
    if rx.channel = ch then cm.receiversOf ch - 1 else cm.receiversOf ch := by
  unfold ConnectionManager.dropReceiver receiversOf
  rw [List.getElem?_modify]
  cases cm.channels[ch]? with
  | none => simp
  | some x =>
      simp only [Option.map_eq_map, Option.map_some, Option.getD_some]
      split <;> rfl

theorem receiversOf_register (h : cm.WellFormed) : (cm.register u).2.receiversOf ch =
    if (cm.register u).1.channel = ch then cm.receiversOf ch + 1 else cm.receiversOf ch := by
  unfold ConnectionManager.register receiversOf
  split
  next ch₀ hu =>
    obtain ⟨x, hx, -⟩ := h.isOpen hu
    dsimp only
    rw [List.getElem?_modify]
    split
    next e =>
      subst e
      simp [hx]
    next e => cases cm.channels[ch]? <;> simp
  next hu =>
    dsimp only
    split
    next e =>
      subst e
      simp
    next e =>
      rw [List.getElem?_append]
      split
      · rfl
      next hlt =>
        rw [List.getElem?_eq_none (by simp only [List.length_singleton]; omega),
          List.getElem?_eq_none (by omega)]

end ConnectionManager

/-! ## The connection manager in a run -/

section Run

variable {codec : Codec} {verifyDetached : Bytes → Bytes → Bytes → Bool}
variable {c c' : State} {m : Move Job Oracle Act} {t : Nat}

/-- How an operation changes the connection manager; `none` stands for a notification that was
handed to a task of its own. -/
inductive Connects (cm : ConnectionManager) : Option (Event Res) → ConnectionManager → Prop
  | register (u : Bytes) : Connects cm (some ⟨.register u, (cm.register u).1⟩) (cm.register u).2
  | unregister (u : Bytes) : Connects cm (some ⟨.unregister u, ()⟩) (cm.unregister u)
  | dropReceiver (rx : Receiver) :
      Connects cm (some ⟨.dropReceiver rx, ()⟩) (cm.dropReceiver rx)
  | sent (e : Option (Event Res)) (u : Bytes) (n : WsNotification)
      (he : ∀ o r, e = some ⟨o, r⟩ → o = .sendToUser u n) : Connects cm e (cm.sendToUser u n).2
  | closed (rx : Receiver) (next : Nat) (hrecv : cm.recv rx = some (.closed, next)) :
      Connects cm (some ⟨.select rx, .broadcast .closed next⟩) cm
  | other (e : Event Res) (hr : ∀ u, e.1 ≠ .register u) (hu : ∀ u, e.1 ≠ .unregister u)
      (hd : ∀ rx, e.1 ≠ .dropReceiver rx)
      (hc : ∀ rx next, e ≠ ⟨.select rx, .broadcast .closed next⟩) : Connects cm (some e) cm
  | quiet : Connects cm none cm

theorem perform_connects {o : Op} {ω : Oracle} {w w' : World} {r : Res o}
    (h : perform verifyDetached o ω w = some (r, w')) :
    Connects w.connections (some ⟨o, r⟩) w'.connections := by
  cases o with
  | register u =>
      obtain ⟨rfl, rfl⟩ := Prod.mk.inj (Option.some.inj h)
      exact .register u
  | unregister u =>
      obtain ⟨rfl, rfl⟩ := Prod.mk.inj (Option.some.inj h)
      exact .unregister u
  | dropReceiver rx =>
      obtain ⟨rfl, rfl⟩ := Prod.mk.inj (Option.some.inj h)
      exact .dropReceiver rx
  | sendToUser u n =>
      obtain ⟨rfl, rfl⟩ := Prod.mk.inj (Option.some.inj h)
      exact .sent _ u n fun o r he ↦ by cases he; rfl
  | sql s =>
      rcases perform_sql h with ⟨rfl, -⟩ | ⟨-, rfl⟩
      · exact .other _ (by simp) (by simp) (by simp) (by simp)
      · exact .other _ (by simp) (by simp) (by simp) (by simp)
  | select rx =>
      obtain ⟨rfl, ⟨f, -, rfl⟩ | ⟨res, next, hrecv, rfl⟩⟩ := perform_select h
      · exact .other _ (by simp) (by simp) (by simp) (by simp)
      · cases res with
        | closed => exact .closed rx next hrecv
        | _ => exact .other _ (by simp) (by simp) (by simp) (by simp)
  | _ =>
      cases ω <;> simp only [perform, Option.some.injEq, Prod.mk.injEq, reduceCtorEq] at h <;>
        exact h.2 ▸ .other _ (by simp) (by simp) (by simp) (by simp)

/-- One move performs one operation, or none. -/
theorem Step.connects (hs : (server codec verifyDetached).Step c m c') :
    (c'.trace = c.trace ∧ Connects c.world.connections none c'.world.connections) ∨
    ∃ t job o r k, (∃ ω, m = .step t ω) ∧ c.pool[t]? = some ⟨job, .perform o k⟩ ∧
      c'.trace = c.trace ++ [(t, ⟨o, r⟩)] ∧
      Connects c.world.connections (some ⟨o, r⟩) c'.world.connections := by
  cases hs with
  | spawn j => exact .inl ⟨rfl, .quiet⟩
  | @step t ω j o k r w ht hp =>
      exact .inr ⟨t, j, o, r, k, ⟨ω, rfl⟩, ht, rfl, perform_connects hp⟩
  | @act a w ha =>
      refine .inl ⟨rfl, ?_⟩
      cases a with
      | tick clock instant =>
          simp only [server, act] at ha
          split at ha
          · obtain rfl := Option.some.inj ha
            exact .quiet
          · cases ha
      | setConfig config =>
          obtain rfl := Option.some.inj ha
          exact .quiet
      | reorder db =>
          simp only [server, act] at ha
          split at ha
          · obtain rfl := Option.some.inj ha
            exact .quiet
          · cases ha
      | runSpawned i =>
          obtain ⟨⟨u, n⟩, -, rfl⟩ := Option.map_eq_some_iff.mp ha
          exact .sent none u n (by simp)

theorem Connects.wellFormed {cm cm' : ConnectionManager} {e : Option (Event Res)}
    (h : Connects cm e cm') (hw : cm.WellFormed) : cm'.WellFormed := by
  cases h with
  | register u => exact hw.register u
  | unregister u => exact hw.unregister u
  | dropReceiver rx => exact hw.dropReceiver rx
  | sent _ u n _ => exact hw.sendToUser u n
  | closed rx next _ => exact hw
  | other e _ _ _ _ => exact hw
  | quiet => exact hw

theorem Reachable.wellFormed (h : Reachable codec verifyDetached c) :
    c.world.connections.WellFormed := by
  refine h.induction (I := fun d ↦ d.world.connections.WellFormed)
    (fun _ _ ↦ ⟨nofun, nofun⟩) ?_
  intro d m d' _ hd hs
  rcases Step.connects hs with ⟨-, hcon⟩ | ⟨_, _, _, _, _, -, -, -, hcon⟩
  · exact hcon.wellFormed hd
  · exact hcon.wellFormed hd

/-- A connection is registered once. -/
theorem Reachable.register_once (h : Reachable codec verifyDetached c) {u u' : Bytes}
    {rx rx' : Receiver} (he : (t, ⟨.register u, rx⟩) ∈ c.trace)
    (he' : (t, ⟨.register u', rx'⟩) ∈ c.trace) : u = u' ∧ rx = rx' := by
  obtain ⟨clock, instant, ms, h⟩ := h
  obtain ⟨q, hq⟩ := List.mem_iff_getElem?.mp he
  obtain ⟨q', hq'⟩ := List.mem_iff_getElem?.mp he'
  have hfirst {u u' : Bytes} {rx rx' : Receiver} {q q' : Nat}
      (hq : c.trace[q]? = some (t, ⟨.register u, rx⟩))
      (hq' : c.trace[q']? = some (t, ⟨.register u', rx'⟩)) : ¬ q < q' := by
    intro hlt
    obtain ⟨-, -, -, token, session, now, hpast, -⟩ := guard_at (code_obeys codec) h hq'
    have hdid := did_take.mpr ⟨q, hlt, hq⟩
    rw [hpast] at hdid
    simp [Did] at hdid
  obtain rfl : q = q' := le_antisymm (not_lt.mp (hfirst hq' hq)) (not_lt.mp (hfirst hq hq'))
  rw [hq] at hq'
  cases hq'
  exact ⟨rfl, rfl⟩

/-- A thread with this past has a receiver of the channel `ch`. -/
def Holds (past : Past) (ch : Nat) : Prop :=
  (∃ u rx, Did past (.register u) rx ∧ rx.channel = ch) ∧ ∀ rx, ¬ Did past (.dropReceiver rx) ()

/-- The receivers of every channel are those of the threads that hold one. -/
def Counted (c : State) : Prop :=
  ∀ ch, ∃ holders : List Nat, holders.Nodup ∧
    holders.length = c.world.connections.receiversOf ch ∧
    ∀ t, t ∈ holders ↔ Holds (past t c.trace) ch

theorem holds_append {past : Past} {e : Event Res} {ch : Nat} (hr : ∀ u, e.1 ≠ .register u)
    (hd : ∀ rx, e.1 ≠ .dropReceiver rx) : Holds (past ++ [e]) ch ↔ Holds past ch := by
  refine and_congr (exists_congr fun u ↦ exists_congr fun rx ↦ and_congr_left fun _ ↦ ?_)
    (forall_congr' fun rx ↦ not_congr ?_)
  · rw [did_append]
    refine or_iff_left fun h ↦ hr u ?_
    rw [← List.mem_singleton.mp h]
  · rw [did_append]
    refine or_iff_left fun h ↦ hd rx ?_
    rw [← List.mem_singleton.mp h]

theorem past_snoc_ne {tr : History} {t' : Nat} (h : t ≠ t') (e : Event Res) :
    past t' (tr ++ [(t, e)]) = past t' tr := by
  rw [past_append, past_singleton_ne h, List.append_nil]

theorem past_snoc_self {tr : History} (e : Event Res) :
    past t (tr ++ [(t, e)]) = past t tr ++ [e] := by
  rw [past_append, past_singleton_self]

/-- An operation that neither registers nor drops a receiver. -/
theorem Counted.other (h : Counted c) {e : Event Res} (htr : c'.trace = c.trace ++ [(t, e)])
    (hr : ∀ u, e.1 ≠ .register u) (hd : ∀ rx, e.1 ≠ .dropReceiver rx)
    (hsame : ∀ ch, c'.world.connections.receiversOf ch = c.world.connections.receiversOf ch) :
    Counted c' := by
  intro ch
  obtain ⟨holders, hnodup, hlen, hmem⟩ := h ch
  refine ⟨holders, hnodup, by rw [hlen, hsame], fun t' ↦ ?_⟩
  rw [hmem, htr]
  by_cases ht : t = t'
  · subst ht
    rw [past_snoc_self, holds_append hr hd]
  · rw [past_snoc_ne ht]

theorem Counted.register (h : Counted c) (hw : c.world.connections.WellFormed) {u : Bytes}
    (hfirst : Authenticated (past t c.trace) u)
    (htr : c'.trace = c.trace ++ [(t, ⟨.register u, (c.world.connections.register u).1⟩)])
    (hcm : c'.world.connections = (c.world.connections.register u).2) : Counted c' := by
  obtain ⟨token, session, now, hpast, -⟩ := hfirst
  have hnot (ch : Nat) : ¬ Holds (past t c.trace) ch := by
    rintro ⟨⟨u', rx, hreg, -⟩, -⟩
    rw [hpast] at hreg
    simp [Did] at hreg
  have hnew (ch : Nat) : Holds (past t c'.trace) ch ↔
      (c.world.connections.register u).1.channel = ch := by
    rw [htr, past_snoc_self, hpast]
    simp [Holds, Did]
  intro ch
  obtain ⟨holders, hnodup, hlen, hmem⟩ := h ch
  rw [hcm, ConnectionManager.receiversOf_register hw]
  split
  next hch =>
    refine ⟨t :: holders, List.nodup_cons.mpr ⟨fun ht ↦ hnot ch ((hmem t).mp ht), hnodup⟩,
      by simp [hlen], fun t' ↦ ?_⟩
    by_cases ht : t = t'
    · subst ht
      exact iff_of_true List.mem_cons_self ((hnew ch).mpr hch)
    · rw [htr, past_snoc_ne ht, ← hmem, List.mem_cons, or_iff_right (Ne.symm ht)]
  next hch =>
    refine ⟨holders, hnodup, hlen, fun t' ↦ ?_⟩
    by_cases ht : t = t'
    · subst ht
      exact iff_of_false (fun ht ↦ hnot ch ((hmem t).mp ht)) (mt (hnew ch).mp hch)
    · rw [htr, past_snoc_ne ht, hmem]

theorem Counted.dropReceiver (h : Counted c) (hc : Reachable codec verifyDetached c)
    {rx : Receiver} {u : Bytes} (hreg : Did (past t c.trace) (.register u) rx)
    (hnone : ∀ rx', ¬ Did (past t c.trace) (.dropReceiver rx') ())
    (htr : c'.trace = c.trace ++ [(t, ⟨.dropReceiver rx, ()⟩)])
    (hcm : c'.world.connections = c.world.connections.dropReceiver rx) : Counted c' := by
  have hholds (ch : Nat) : Holds (past t c.trace) ch ↔ rx.channel = ch := by
    refine ⟨?_, fun hch ↦ ⟨⟨u, rx, hreg, hch⟩, hnone⟩⟩
    rintro ⟨⟨u', rx', hreg', rfl⟩, -⟩
    rw [(hc.register_once (did_past.mp hreg) (did_past.mp hreg')).2]
  have hnot (ch : Nat) : ¬ Holds (past t c'.trace) ch := by
    rintro ⟨-, hno⟩
    refine hno rx ?_
    rw [htr, past_snoc_self]
    simp [Did]
  intro ch
  obtain ⟨holders, hnodup, hlen, hmem⟩ := h ch
  rw [hcm, ConnectionManager.receiversOf_dropReceiver]
  split
  next hch =>
    have ht : t ∈ holders := (hmem t).mpr ((hholds ch).mpr hch)
    refine ⟨holders.erase t, hnodup.erase t, by rw [List.length_erase_of_mem ht, hlen],
      fun t' ↦ ?_⟩
    rw [hnodup.mem_erase_iff]
    by_cases e : t = t'
    · subst e
      exact iff_of_false (fun h ↦ h.1 rfl) (hnot ch)
    · rw [htr, past_snoc_ne e, hmem, and_iff_right (Ne.symm e)]
  next hch =>
    refine ⟨holders, hnodup, hlen, fun t' ↦ ?_⟩
    by_cases e : t = t'
    · subst e
      exact iff_of_false (fun ht ↦ hch ((hholds ch).mp ((hmem t).mp ht))) (hnot ch)
    · rw [htr, past_snoc_ne e, hmem]

theorem Reachable.counted (h : Reachable codec verifyDetached c) : Counted c := by
  refine h.induction (I := Counted) (fun _ _ ch ↦ ⟨[], List.nodup_nil, rfl, fun t ↦ ?_⟩) ?_
  · simp [Holds, Did, Config.start]
  intro d m d' hd hI hs
  rcases Step.connects hs with ⟨htr, hcon⟩ | ⟨t, job, o, r, k, -, hpool, htr, hcon⟩
  · intro ch
    obtain ⟨holders, hnodup, hlen, hmem⟩ := hI ch
    refine ⟨holders, hnodup, ?_, by rwa [htr]⟩
    generalize d'.world.connections = cm' at hcon
    cases hcon with
    | sent _ u n _ => rw [ConnectionManager.receiversOf_sendToUser, hlen]
    | quiet => exact hlen
  · have hguard := hd.guard hpool
    generalize hcm : d'.world.connections = cm' at hcon
    cases hcon with
    | register u => exact hI.register hd.wellFormed hguard.2 htr hcm
    | unregister u =>
        refine hI.other htr (by simp) (by simp) fun ch ↦ ?_
        rw [hcm, ConnectionManager.receiversOf_unregister]
    | dropReceiver rx =>
        obtain ⟨-, ⟨u, hreg, -⟩, hnone⟩ := hguard
        exact hI.dropReceiver hd hreg hnone htr hcm
    | sent _ u n he =>
        obtain rfl := he _ _ rfl
        refine hI.other htr (by simp) (by simp) fun ch ↦ ?_
        rw [hcm, ConnectionManager.receiversOf_sendToUser]
    | closed rx next _ => exact hI.other htr (by simp) (by simp) fun ch ↦ by rw [hcm]
    | other _ hr hu hdrop _ => exact hI.other htr hr hdrop fun ch ↦ by rw [hcm]

/-! ## Live connections keep their entry -/

/-- A live connection still has its entry, has not removed it, and was not closed. -/
structure Kept (c : State) (t : Nat) (u : Bytes) (rx : Receiver) : Prop where
  entry : c.world.connections.connections u = some rx.channel
  notRemoved : (t, ⟨.unregister u, ()⟩) ∉ c.trace
  notClosed : ∀ rx next, (t, ⟨.select rx, .broadcast .closed next⟩) ∉ c.trace

def AllKept (c : State) : Prop :=
  ∀ t u rx, Live c t u → (t, ⟨.register u, rx⟩) ∈ c.trace → Kept c t u rx

theorem Live.of_append {ext : History} {u : Bytes} {rx : Receiver} (h : Live c' t u)
    (htr : c'.trace = c.trace ++ ext) (he : (t, ⟨.register u, rx⟩) ∈ c.trace) : Live c t u := by
  refine live_iff.mpr ⟨⟨rx, he⟩, fun e hmem ↦ (live_iff.mp h).2 e ?_⟩
  rw [htr]
  exact List.mem_append_left _ hmem

/-- The entry of a user stays while no entry of this user is removed. -/
theorem Connects.entry {cm cm' : ConnectionManager} {e : Option (Event Res)}
    (h : Connects cm e cm') {u : Bytes} {ch : Nat} (hu : cm.connections u = some ch)
    (hne : e ≠ some ⟨.unregister u, ()⟩) : cm'.connections u = some ch := by
  cases h with
  | register u' => exact ConnectionManager.connections_register hu
  | unregister u' =>
      have hu' : u ≠ u' := by
        rintro rfl
        exact hne rfl
      rw [ConnectionManager.connections_unregister, Function.update_of_ne hu', hu]
  | dropReceiver rx => exact hu
  | sent _ u' n _ => rw [ConnectionManager.connections_sendToUser, hu]
  | closed rx next _ => exact hu
  | other e _ _ _ _ => exact hu
  | quiet => exact hu

/-- One operation of a thread, on the connections that were there before it. -/
theorem Kept.step (h : Reachable codec verifyDetached c) {t₀ : Nat} {job : Job} {o : Op}
    {r : Res o} {k : Res o → Handler (Option Reply)}
    (hpool : c.pool[t₀]? = some ⟨job, .perform o k⟩)
    (htr : c'.trace = c.trace ++ [(t₀, ⟨o, r⟩)])
    (hcon : Connects c.world.connections (some ⟨o, r⟩) c'.world.connections) {u : Bytes}
    {rx : Receiver} (hk : Kept c t u rx) (he : (t, ⟨.register u, rx⟩) ∈ c.trace)
    (hlast : o ≠ .unregister u) : Kept c' t u rx := by
  refine ⟨hcon.entry hk.entry ?_, ?_, fun rx' next hclosed ↦ ?_⟩
  · intro heq
    exact hlast (congrArg Sigma.fst (Option.some.inj heq))
  · rw [htr]
    intro hmem
    rcases List.mem_append.mp hmem with hmem | hmem
    · exact hk.notRemoved hmem
    · exact hlast (congrArg (fun e ↦ e.2.1) (List.mem_singleton.mp hmem)).symm
  · rw [htr] at hclosed
    rcases List.mem_append.mp hclosed with hmem | hmem
    · exact hk.notClosed rx' next hmem
    · -- the receiver reads from the channel of the entry, which is open
      cases List.mem_singleton.mp hmem
      obtain ⟨-, u', rx₀, hreg, hch⟩ := h.guard hpool
      obtain ⟨-, rfl⟩ := h.register_once he (did_past.mp hreg)
      obtain ⟨x, hx, hopen⟩ := h.wellFormed.isOpen hk.entry
      rw [← hch] at hx
      generalize c'.world.connections = cm' at hcon
      cases hcon with
      | closed _ _ hrecv => exact ConnectionManager.recv_ne_closed hx hopen next hrecv
      | other _ _ _ _ hne => exact hne rx' next rfl
      | sent _ _ _ hsent => exact nomatch hsent _ _ rfl

/-- The connection that has just been registered. -/
theorem Kept.registered {u : Bytes} (hfirst : Authenticated (past t c.trace) u)
    (htr : c'.trace = c.trace ++ [(t, ⟨.register u, (c.world.connections.register u).1⟩)])
    (hcm : c'.world.connections = (c.world.connections.register u).2) :
    Kept c' t u (c.world.connections.register u).1 := by
  obtain ⟨token, session, now, hpast, -⟩ := hfirst
  refine ⟨?_, ?_, fun rx next ↦ ?_⟩
  · rw [hcm]
    exact ConnectionManager.connections_register_self
  · rw [htr, ← mem_past, past_snoc_self, hpast]
    simp
  · rw [htr, ← mem_past, past_snoc_self, hpast]
    simp

theorem AllKept.step (h : Reachable codec verifyDetached c) (hk : AllKept c)
    (hlast : RemovesLast c m) (hs : (server codec verifyDetached).Step c m c') : AllKept c' := by
  intro t u rx hlive he
  rcases Step.connects hs with ⟨htr, hcon⟩ | ⟨t₀, job, o, r, k, ⟨ω, rfl⟩, hpool, htr, hcon⟩
  · rw [htr] at he
    have hold := hk t u rx (hlive.of_append (htr.trans (List.append_nil _).symm) he) he
    exact ⟨hcon.entry hold.entry (by simp), htr ▸ hold.notRemoved, htr ▸ hold.notClosed⟩
  · rw [htr] at he
    rcases List.mem_append.mp he with hold | hnew
    · have hlive := hlive.of_append htr hold
      refine (hk t u rx hlive hold).step h hpool htr hcon hold ?_
      rintro rfl
      simp only [RemovesLast, hpool] at hlast
      obtain ⟨clock, instant, ms, hrun⟩ := h
      obtain ⟨th, hth⟩ := Machine.pool_of_mem hrun hold
      exact hlast t (List.getElem?_eq_some_iff.mp hth).1 hlive
    · cases List.mem_singleton.mp hnew
      obtain ⟨-, hfirst⟩ := h.guard hpool
      generalize hcm : c'.world.connections = cm' at hcon
      cases hcon with
      | register _ => exact Kept.registered hfirst htr hcm
      | other _ hr _ _ _ => exact absurd rfl (hr u)
      | sent _ _ _ hsent => cases hsent _ _ rfl

/-- A connection that has dropped its receiver has removed the entry of its user. -/
theorem Reachable.unregistered_of_drop (h : Reachable codec verifyDetached c) {u : Bytes}
    {rx rx' : Receiver} (he : (t, ⟨.register u, rx⟩) ∈ c.trace)
    (hdrop : (t, ⟨.dropReceiver rx', ()⟩) ∈ c.trace) : (t, ⟨.unregister u, ()⟩) ∈ c.trace := by
  obtain ⟨pre, post, htr⟩ := List.append_of_mem hdrop
  obtain ⟨c₁, ω, job, k, w, h₁, rfl, hpool, -⟩ := h.moment htr
  obtain ⟨-, ⟨u', hreg, hrem⟩, -⟩ := h₁.guard hpool
  have hsub {e : Nat × Event Res} (hmem : e ∈ c₁.trace) : e ∈ c.trace := by
    rw [htr]
    exact List.mem_append_left _ hmem
  obtain ⟨rfl, -⟩ := h.register_once he (hsub (did_past.mp hreg))
  exact hsub (did_past.mp hrem)

/-- A connection that has not removed its entry has not dropped its receiver. -/
theorem Kept.holds (h : Reachable codec verifyDetached c) {u : Bytes} {rx : Receiver}
    (hk : Kept c t u rx) (he : (t, ⟨.register u, rx⟩) ∈ c.trace) :
    Holds (past t c.trace) rx.channel := by
  refine ⟨⟨u, rx, did_past.mpr he, rfl⟩, fun rx' hdrop ↦ hk.notRemoved ?_⟩
  exact h.unregistered_of_drop he (did_past.mp hdrop)

theorem AllKept.coexist (h : Reachable codec verifyDetached c) (hk : AllKept c) : Coexist c := by
  intro t u hlive
  obtain ⟨rx₀, he₀⟩ := (live_iff.mp hlive).1
  have hkept := hk t u rx₀ hlive he₀
  refine ⟨?_, fun n rx he ↦ ?_, hkept.notClosed⟩
  · simp [ConnectionManager.isConnected, hkept.entry]
  · obtain ⟨-, rfl⟩ := h.register_once he₀ he
    obtain ⟨holders, -, hlen, hmem⟩ := h.counted rx₀.channel
    have hpos := List.length_pos_of_mem ((hmem t).mpr (hkept.holds h he))
    have hne : (c.world.connections.channels[rx₀.channel]?.map Channel.receivers).getD 0 ≠ 0 := by
      rw [← ConnectionManager.receiversOf]
      omega
    obtain ⟨x, hx, -⟩ := h.wellFormed.isOpen hkept.entry
    simp only [ConnectionManager.sendToUser, hkept.entry, if_neg hne, true_and]
    simp [ConnectionManager.logOf, hx]

/-- After an entry is removed the user is not connected, whoever is still live. -/
theorem not_coexist_of_unregister {u : Bytes} {job : Job} {ω : Oracle} {t₀ : Nat}
    {k : Res (.unregister u) → Handler (Option Reply)}
    (hpool : c.pool[t₀]? = some ⟨job, .perform (.unregister u) k⟩) (hlive : Live c t u)
    (hs : (server codec verifyDetached).Step c (.step t₀ ω) c') : ¬ Coexist c' := by
  intro hco
  rcases Step.connects hs with ⟨htr, -⟩ | ⟨t', job', o, r, k', ⟨ω', heq⟩, hpool', htr, hcon⟩
  · cases hs with
    | step ht hp => simp at htr
  · cases heq
    rw [hpool] at hpool'
    cases hpool'
    have hlive' : Live c' t u := by
      obtain ⟨⟨rx, he⟩, hends⟩ := live_iff.mp hlive
      refine live_iff.mpr ⟨⟨rx, ?_⟩, fun e hmem ↦ ?_⟩
      · rw [htr]
        exact List.mem_append_left _ he
      · rw [htr] at hmem
        rcases List.mem_append.mp hmem with hmem | hmem
        · exact hends e hmem
        · cases List.mem_singleton.mp hmem
          rfl
    have hcon' := (hco t u hlive').connected
    generalize c'.world.connections = cm' at hcon hcon'
    cases hcon with
    | unregister _ => simp [ConnectionManager.isConnected] at hcon'
    | other _ _ hu _ _ => exact hu u rfl
    | sent _ _ _ hsent => exact nomatch hsent _ _ rfl

variable {ms : Moves} {clock instant : Nat}

/-- **Connections of one user coexist** exactly as long as no entry is removed under a live
one: in all states of a run every live connection is served, if and only if every move of the
run that removes the entry of a user is made when no connection of the user is live. -/
theorem connections_coexist_iff
    (h : (server codec verifyDetached).run (.start (.initial clock instant)) ms = some c) :
    (∀ ms₁ ms₂ c₁, ms = ms₁ ++ ms₂ →
      (server codec verifyDetached).run (.start (.initial clock instant)) ms₁ = some c₁ →
      Coexist c₁) ↔
    (server codec verifyDetached).Along RemovesLast (.start (.initial clock instant)) ms := by
  constructor
  · intro hall
    refine Machine.along_of_forall fun ms₁ m ms₂ c₁ hms h₁ ↦ ?_
    rw [hms] at h
    obtain ⟨c₁', h₁', h₂⟩ := Machine.run_append.mp h
    obtain rfl := Option.some.inj (h₁.symm.trans h₁')
    obtain ⟨c₂, hnext, -⟩ := Machine.run_cons.mp h₂
    unfold RemovesLast
    split
    · split
      next hpool =>
        intro t' _ hlive
        refine not_coexist_of_unregister hpool hlive (Machine.step_of_next hnext) ?_
        refine hall (ms₁ ++ [_]) ms₂ c₂ (by rw [hms, List.append_assoc, List.singleton_append]) ?_
        exact Machine.run_append.mpr ⟨c₁, h₁, Machine.run_cons.mpr ⟨c₂, hnext, rfl⟩⟩
      · trivial
    · trivial
  · rintro halong ms₁ ms₂ c₁ rfl h₁
    have hkept : Reachable codec verifyDetached c₁ ∧ AllKept c₁ := by
      refine halong.left.invariant (I := fun d ↦ Reachable codec verifyDetached d ∧ AllKept d) ?_
        h₁ ⟨⟨clock, instant, [], rfl⟩, fun t u rx _ he ↦ by cases he⟩
      rintro d m d' ⟨hd, hk⟩ hlast hs
      exact ⟨hd.run (hs.run_cons Machine.run_nil), hk.step hd hlast hs⟩
    exact hkept.2.coexist hkept.1

end Run

namespace Sample

def loginSigned : List (Bytes × Bytes) := [(key 1, word 8 ++ word 1 ++ le64 5)]

/-- User 1 has two connections, threads 3 and 4. -/
def pairRun : Moves :=
  loginRun ++ [.spawn (.websocket 1), .step 4 (.frame (some (.binary (word 1 ++ word 9))))] ++
  steps 4 3

/-- The sockets of both connections are closed, and then the first one removes the entry. -/
def bothEnd : Moves := [.step 3 (.frame (some .close)), .step 4 (.frame (some .close))] ++ steps 3 1

/-- The socket of the first connection is closed and it removes the entry; then the second one
waits for input. -/
def firstEnds : Moves := .step 3 (.frame (some .close)) :: steps 3 1 ++ steps 4 1

end Sample

open Sample in
/-- The second connection is live, but the user is not connected, nothing can be sent to it, and
its receiver was closed. -/
theorem connection_lost : ∃ c, final loginSigned (pairRun ++ firstEnds) = some c ∧
    Live c 4 (word 1) ∧ c.world.connections.isConnected (word 1) = false ∧
    (∀ n, (c.world.connections.sendToUser (word 1) n).1 = false) ∧
    ∃ e ∈ c.trace, e.1 = 4 ∧ receiverClosed e.2 = true := by
  have hrun : ((final loginSigned (pairRun ++ firstEnds)).any fun c ↦
      Live c 4 (word 1) ∧ c.world.connections.connections (word 1) = none ∧
      ∃ e ∈ c.trace, e.1 = 4 ∧ receiverClosed e.2 = true) = true := by decide +kernel
  rw [Option.any_eq_true] at hrun
  obtain ⟨c, hc, hfacts⟩ := hrun
  obtain ⟨hlive, hnone, hclosed⟩ := of_decide_eq_true hfacts
  refine ⟨c, hc, hlive, ?_, fun n ↦ ?_, hclosed⟩
  · simp [ConnectionManager.isConnected, hnone]
  · simp [ConnectionManager.sendToUser, hnone]

open Sample in
theorem connections_coexist_iff_pairRun : ∃ c, final loginSigned pairRun = some c ∧
    Live c 3 (word 1) ∧ Live c 4 (word 1) ∧ Served c 3 (word 1) ∧ Served c 4 (word 1) := by
  have hrun : ((final loginSigned pairRun).any fun c ↦
      Live c 3 (word 1) ∧ Live c 4 (word 1)) = true := by decide +kernel
  have hend : (final loginSigned (pairRun ++ bothEnd)).isSome = true := by decide +kernel
  have halong : (system loginSigned).Along RemovesLast (.start (.initial 0 0))
      (pairRun ++ bothEnd) := Machine.along_of_check (by decide +kernel)
  rw [Option.any_eq_true] at hrun
  obtain ⟨c, hc, hfacts⟩ := hrun
  obtain ⟨hlive₃, hlive₄⟩ := of_decide_eq_true hfacts
  obtain ⟨c', hc'⟩ := Option.isSome_iff_exists.mp hend
  have hco : Coexist c := (connections_coexist_iff hc').mpr halong pairRun bothEnd c rfl hc
  exact ⟨c, hc, hlive₃, hlive₄, hco 3 (word 1) hlive₃, hco 4 (word 1) hlive₄⟩

end ZenthDht
