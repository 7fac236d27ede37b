import CartoLive.Live.Hub

/-!
# What a lagging client is sent

The events handed to a client's socket are a prefix of the events broadcast
since it registered, in every run in which no event is sent to the client's
still open queue after one was dropped for it. A pump that frees a slot before
the removal closes the queue breaks this: the next event goes out although an
earlier one is missing.
-/

namespace CartoLive.Theorems.HubDelivery

open CartoLive.Lib CartoLive.Live

/-- The event envelopes of a list. -/
def events (envs : List Envelope) : List Envelope := envs.filter Envelope.isEvent

/-- The guard of the main result: when an event is sent to the client after one
was dropped for it, the queue is closed or has no room. -/
def NoSendAfterDrop (queueSize : Nat) (s : HubState) : HubAct → Prop
  | .send => s.lost = true → s.client.closed = true ∨ ¬ s.client.HasRoom queueSize
  | _ => True

instance (queueSize : Nat) (s : HubState) (act : HubAct) :
    Decidable (NoSendAfterDrop queueSize s act) := by
  cases act <;> (unfold NoSendAfterDrop; infer_instance)

/-- The broadcasts whose `safeSend` has been reached. -/
def sent (s : HubState) : List Envelope :=
  match s.inFlight with
  | none => s.broadcast
  | some _ => s.broadcast.dropLast

/-- The envelopes that will still reach the socket if nothing else happens. -/
def pending (s : HubState) : List Envelope :=
  if s.pump = .done then [] else events s.client.send

/-! ## The invariant -/

structure DeliveryInv (s : HubState) : Prop where
  /-- A broadcast under way is the last one. -/
  inFlight_last : ∀ env found, s.inFlight = some (env, found) →
    s.broadcast.getLast? = some env ∧ env.isEvent = true
  /-- A look-up that missed the client found it removed. -/
  missed_closed : ∀ env, s.inFlight = some (env, false) → s.client.closed = true
  registered_open : s.client.registered = true → s.client.closed = false
  unregistered_closed : s.client.registered = false → s.client.closed = true
  /-- What was and will be delivered is a prefix of what was sent. -/
  isPrefix : events s.delivered ++ pending s <+: sent s
  /-- Until something is dropped or closed nothing is missing. -/
  complete : s.lost = false → s.client.closed = false → s.pump ≠ .done →
    events s.delivered ++ pending s = sent s

variable {queueSize : Nat} {s s' : HubState}

theorem sent_le_broadcast (s : HubState) : sent s <+: s.broadcast := by
  unfold sent
  split
  · exact List.prefix_refl _
  · exact List.dropLast_prefix _

/-- A list is its last element behind the others. -/
theorem dropLast_append_of_getLast? {l : List Envelope} {env : Envelope}
    (h : l.getLast? = some env) : l.dropLast ++ [env] = l := by
  obtain ⟨init, rfl⟩ := List.getLast?_eq_some_iff.mp h
  rw [List.dropLast_concat]

/-! ## The steps -/

theorem DeliveryInv.hello (h : DeliveryInv s)
    (hstep : hubStep queueSize s .hello = some s') : DeliveryInv s' := by
  simp only [hubStep] at hstep
  split at hstep
  · rename_i hguard
    cases hstep
    have hevents : events (s.client.send ++ [controlEnvelope "hello" s.latestSeq]) =
        events s.client.send := by
      simp [events, Envelope.isEvent, controlEnvelope]
    have hpending : pending s = events s.client.send := if_neg (by simp [hguard.1])
    refine { h with isPrefix := ?_, complete := fun hlost hopen _ => ?_ }
    · have := h.isPrefix
      rw [hpending] at this
      simpa [pending, sent, hevents] using this
    · have := h.complete hlost hopen (by simp [hguard.1])
      rw [hpending] at this
      simpa [pending, sent, hevents] using this
  · cases hstep

theorem DeliveryInv.broadcast (h : DeliveryInv s) (event : PublicEvent)
    (hstep : hubStep queueSize s (.broadcast event) = some s') : DeliveryInv s' := by
  simp only [hubStep] at hstep
  split at hstep
  · rename_i hidle
    cases hstep
    have hsent : sent s = s.broadcast := by
      unfold sent
      rw [hidle]
    refine
      { inFlight_last := fun env found hin => ?_
        missed_closed := fun env hin => h.unregistered_closed ?_
        registered_open := h.registered_open
        unregistered_closed := h.unregistered_closed
        isPrefix := ?_
        complete := fun hlost hopen hpump => ?_ }
    · cases hin
      exact ⟨List.getLast?_concat, rfl⟩
    · exact (Prod.ext_iff.mp (Option.some.inj hin)).2
    · have := h.isPrefix
      rw [hsent] at this
      simpa [sent, pending] using this
    · have := h.complete hlost hopen hpump
      rw [hsent] at this
      simpa [sent, pending] using this
  · cases hstep

/-- The end of a broadcast that adds nothing to a queue from which nothing more
is expected. -/
theorem DeliveryInv.endBroadcast (h : DeliveryInv s) {client : Client} {lost : Bool}
    (hsend : client.send = s.client.send) (hclosed : client.closed = s.client.closed)
    (hregistered : client.registered = s.client.registered)
    (hmissing : lost = false → s.client.closed = true) :
    DeliveryInv { s with client, inFlight := none, lost } where
  inFlight_last := by simp
  missed_closed := by simp
  registered_open := by simpa [hclosed, hregistered] using h.registered_open
  unregistered_closed := by simpa [hclosed, hregistered] using h.unregistered_closed
  isPrefix := by
    have := h.isPrefix.trans (sent_le_broadcast s)
    simpa [pending, sent, hsend] using this
  complete hlost hopen := by
    rw [hclosed, hmissing hlost] at hopen
    cases hopen

/-- An event that finds room goes behind everything sent before it. -/
theorem DeliveryInv.enqueue (h : DeliveryInv s) {env : Envelope}
    (hin : s.inFlight = some (env, true)) (hopen : s.client.closed = false)
    (hkept : s.lost = false) :
    DeliveryInv { s with
      client := { s.client with send := s.client.send ++ [env] }, inFlight := none } := by
  obtain ⟨hlast, hevent⟩ := h.inFlight_last env true hin
  have hsent : sent s = s.broadcast.dropLast := by
    unfold sent
    rw [hin]
  have hwhole : s.pump ≠ .done →
      events s.delivered ++ events (s.client.send ++ [env]) = s.broadcast := by
    intro hpump
    have hbefore := h.complete hkept hopen hpump
    rw [pending, if_neg hpump, hsent] at hbefore
    have hnew : events (s.client.send ++ [env]) = events s.client.send ++ [env] := by
      simp [events, hevent]
    rw [hnew, ← List.append_assoc, hbefore, dropLast_append_of_getLast? hlast]
  refine
    { inFlight_last := by simp
      missed_closed := by simp
      registered_open := h.registered_open
      unregistered_closed := h.unregistered_closed
      isPrefix := ?_
      complete := fun _ _ hpump => ?_ }
  · by_cases hpump : s.pump = .done
    · have := h.isPrefix.trans (sent_le_broadcast s)
      simpa [pending, hpump, sent] using this
    · simp only [pending, hpump, if_false, sent, hwhole hpump]
      exact List.prefix_refl _
  · have hpump' : s.pump ≠ .done := hpump
    simpa only [pending, hpump', if_false, sent] using hwhole hpump'

/-- The send of a broadcast: the guard is what keeps the queue free of events
that are sent after a drop. -/
theorem DeliveryInv.send (h : DeliveryInv s) (hguard : NoSendAfterDrop queueSize s .send)
    (hstep : hubStep queueSize s .send = some s') : DeliveryInv s' := by
  rcases hin : s.inFlight with _ | ⟨env, found⟩
  · simp [hubStep, hin] at hstep
  cases found with
  | false =>
    simp only [hubStep, hin, Option.some.injEq] at hstep
    subst hstep
    exact h.endBroadcast rfl rfl rfl fun _ => h.missed_closed env hin
  | true =>
    simp only [hubStep, hin, Option.some.injEq] at hstep
    subst hstep
    by_cases hclosed : s.client.closed = true
    · -- the send panics on the closed queue
      rw [safeSend_closed hclosed]
      exact h.endBroadcast rfl rfl rfl fun _ => hclosed
    have hopen := Bool.eq_false_of_not_eq_true hclosed
    by_cases hroom : s.client.HasRoom queueSize
    · have hkept : s.lost = false := by
        by_contra hlost
        rcases hguard (Bool.eq_true_of_not_eq_false hlost) with hshut | hfull
        · exact hclosed hshut
        · exact hfull hroom
      rw [safeSend_room hopen hroom]
      have := h.enqueue hin hopen hkept
      simpa [hkept] using this
    · -- the queue is full: the envelope is dropped and the loss recorded
      rw [safeSend_full hopen hroom]
      exact h.endBroadcast rfl rfl rfl fun hlost => by simp at hlost

theorem DeliveryInv.reply (h : DeliveryInv s) (type : String)
    (hstep : hubStep queueSize s (.reply type) = some s') : DeliveryInv s' := by
  simp only [hubStep] at hstep
  split at hstep
  · cases hstep
  · rename_i htype
    cases hstep
    have hcontrol : (controlEnvelope type s.latestSeq).isEvent = false := by
      simp [controlEnvelope, Envelope.isEvent, htype]
    have hevents : events (safeSend queueSize s.client (controlEnvelope type s.latestSeq)).send =
        events s.client.send := events_safeSend_control queueSize s.client hcontrol
    exact
      { inFlight_last := h.inFlight_last
        missed_closed := by simpa using h.missed_closed
        registered_open := by simpa using h.registered_open
        unregistered_closed := by simpa using h.unregistered_closed
        isPrefix := by simpa [pending, sent, hevents] using h.isPrefix
        complete := by simpa [pending, sent, hevents] using h.complete }

theorem DeliveryInv.pump (h : DeliveryInv s)
    (hstep : hubStep queueSize s .pump = some s') : DeliveryInv s' := by
  rcases hqueue : s.client.send with _ | ⟨env, rest⟩
  · simp [hubStep, hqueue] at hstep
  simp only [hubStep, hqueue] at hstep
  split at hstep
  · rename_i hrunning
    have hpending : pending s = events (env :: rest) := by
      simp [pending, hrunning, hqueue]
    have hmoved : events (s.delivered ++ [env]) ++ events rest =
        events s.delivered ++ events (env :: rest) := by
      simp [events, List.filter_append, List.filter_cons]
      split <;> simp
    split at hstep
    · cases hstep
      refine { h with isPrefix := ?_, complete := fun hlost hopen hpump => ?_ }
      · have := h.isPrefix
        rw [hpending, ← hmoved] at this
        simpa [pending, hrunning, sent] using this
      · have := h.complete hlost hopen hpump
        rw [hpending, ← hmoved] at this
        simpa [pending, hrunning, sent] using this
    · cases hstep
      refine { h with isPrefix := ?_, complete := fun _ _ hpump => absurd rfl hpump }
      have := (List.prefix_append (events s.delivered) (pending s)).trans h.isPrefix
      simpa [pending, sent] using this
  · cases hstep

/-- A pump that has ended delivers nothing more. -/
theorem DeliveryInv.pumpDone (h : DeliveryInv s) : DeliveryInv { s with pump := .done } := by
  refine { h with isPrefix := ?_, complete := fun _ _ hpump => absurd rfl hpump }
  have := (List.prefix_append (events s.delivered) (pending s)).trans h.isPrefix
  simpa [pending, sent] using this

theorem DeliveryInv.remove (h : DeliveryInv s)
    (hstep : hubStep queueSize s .remove = some s') : DeliveryInv s' := by
  simp only [hubStep] at hstep
  split at hstep
  · cases hstep
    exact
      { inFlight_last := h.inFlight_last
        missed_closed := fun _ _ => rfl
        registered_open := fun hreg => by simp [removeWithReason] at hreg
        unregistered_closed := fun _ => rfl
        isPrefix := h.isPrefix
        complete := fun _ hopen => by simp [removeWithReason] at hopen }
  · cases hstep

/-- The step lemma. -/
theorem DeliveryInv.step (h : DeliveryInv s) {act : HubAct}
    (hguard : NoSendAfterDrop queueSize s act) (hstep : hubStep queueSize s act = some s') :
    DeliveryInv s' := by
  cases act with
  | hello => exact h.hello hstep
  | broadcast event => exact h.broadcast event hstep
  | send => exact h.send hguard hstep
  | reply type => exact h.reply type hstep
  | pump => exact h.pump hstep
  | pumpFails =>
    simp only [hubStep] at hstep
    split at hstep
    · cases hstep
      exact h.pumpDone
    · cases hstep
  | pumpEnds =>
    simp only [hubStep] at hstep
    split at hstep
    · cases hstep
      exact h.pumpDone
    · cases hstep
  | remove => exact h.remove hstep
  | closeConn =>
    simp only [hubStep] at hstep
    split at hstep
    · cases hstep
      exact { h with isPrefix := h.isPrefix, complete := h.complete }
    · cases hstep

/-- The run lemma. -/
theorem deliveryInv (queueSize : Nat) :
    (hub queueSize).InductiveOn (NoSendAfterDrop queueSize) DeliveryInv where
  init s hs := by
    obtain ⟨latestSeq, rfl⟩ := hs
    constructor <;> simp [registeredState, freshClient, pending, sent, events]
  step _ _ _ h hguard hstep := h.step hguard hstep

/-! ## The main result -/

/-- **No silent loss under the guard.** In every run in which no event is sent
to the client's open queue with room after one was dropped for it, the events
handed to the socket are a prefix of the events broadcast. -/
theorem delivered_isPrefix (queueSize : Nat) {s : HubState}
    (hs : (hub queueSize).ReachOn (NoSendAfterDrop queueSize) s) :
    events s.delivered <+: s.broadcast := by
  have h := (deliveryInv queueSize).invariant hs
  exact ((List.prefix_append _ _).trans h.isPrefix).trans (sent_le_broadcast s)

/-! ## Runs -/

/-- The node update with a given sequence. -/
def numbered (seq : Int) : PublicEvent := { PublicEvent.sample "YOW" seq with seq }

/-- A queue of one: the second event is dropped, the removal closes the queue,
and the pump still writes the first. -/
def orderlyOverflow : List HubAct :=
  [.hello, .pump, .broadcast (numbered 1), .send, .broadcast (numbered 2), .send, .remove,
    .broadcast (numbered 3), .send, .pump, .closeConn]

/-- The guarded run of an overflow whose removal comes in time. -/
theorem orderlyOverflow_delivers :
    ∃ s, (hub 1).ReachOn (NoSendAfterDrop 1) s ∧ s.lost = true ∧
      (events s.delivered).map Envelope.seq = [1] ∧ events s.delivered <+: s.broadcast := by
  obtain ⟨s, hs, htest⟩ := TSys.exists_reachOn_of_runOn (M := hub 1) (NoSendAfterDrop 1)
    orderlyOverflow
    (fun s => decide (s.lost = true ∧ (events s.delivered).map Envelope.seq = [1]))
    ⟨0, rfl⟩ (by decide +kernel)
  obtain ⟨hlost, hseq⟩ := of_decide_eq_true htest
  exact ⟨s, hs, hlost, hseq, delivered_isPrefix 1 hs⟩

/-- A queue of one, full with `hello`: the first event is dropped, the pump
frees the slot before the removal runs, and the second event goes out. -/
def lateRemoval : List HubAct :=
  [.hello, .broadcast (numbered 1), .send, .pump, .broadcast (numbered 2), .send, .pump]

/-- Without the guard a client can be sent an event after one that it lost. -/
theorem event_delivered_after_drop :
    ¬ ∀ (queueSize : Nat) (s : HubState), (hub queueSize).Reachable s →
      events s.delivered <+: s.broadcast := by
  intro h
  obtain ⟨s, hs, htest⟩ := TSys.exists_reachable_of_run (M := hub 1) (s := registeredState 0)
    lateRemoval (fun s => decide (¬ events s.delivered <+: s.broadcast))
    ⟨0, rfl⟩ (by decide +kernel)
  exact of_decide_eq_true htest (h 1 s hs)

end CartoLive.Theorems.HubDelivery
