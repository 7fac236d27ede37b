import CartoLive.Mqtt.Client

/-!
# Accounting of the intake

The counters of the MQTT client add up at every moment once the calls and the
message that are half counted are counted too: a call adds to `total` before its
message is accepted or dropped, and a message is in the channel before it is
counted as accepted. The times of enqueueing follow the channel, but for the time
between a send and its append and between a receive and its pop.
-/

namespace CartoLive.Theorems.IntakeAccounting

open CartoLive.Lib CartoLive.Mqtt

/-! ## What is half done -/

/-- `total` counts the message of the call, and no other counter does. -/
def undecided (call : Submit) : Bool :=
  match call.phase with
  | .touch | .stamp | .lock _ | .send _ | .append _ | .accept | .unlock false | .drop => true
  | _ => false

/-- The message is in the channel, and `accepted` does not count it. -/
def unaccepted (call : Submit) : Bool :=
  match call.phase with
  | .append _ | .accept => true
  | _ => false

/-- The time of a message that is in the channel already. -/
def appending (call : Submit) : Option Int :=
  match call.phase with
  | .append now => some now
  | _ => none

/-- How many messages the worker has. -/
def inHand : DispatchPhase → Nat
  | .select | .returned => 0
  | _ => 1

/-- The message that was received and whose time was not popped. -/
def unpopped : DispatchPhase → List QueuedMessage
  | .received m | .pop m => [m]
  | _ => []

/-- `permanentRejected` counts a message that `processed` does not. -/
def halfRejected : DispatchPhase → Nat
  | .rejected => 1
  | _ => 0

/-- What the counters, the channel and the times have to do with each other. -/
structure Accounted (s : Intake) : Prop where
  lock : Exclusion id s.holds
  total : s.total = s.accepted + s.dropped + s.calls.countP undecided
  accepted : s.accepted + s.calls.countP unaccepted =
    s.queue.length + inHand s.worker + s.processed + s.failed
  rejected : s.permanentRejected ≤ s.processed + halfRejected s.worker
  handed : s.sent = s.handed ++ (unpopped s.worker ++ s.queue).map QueuedMessage.message
  times : s.queueTimes ++ s.calls.filterMap appending =
    (unpopped s.worker ++ s.queue).map QueuedMessage.enqueuedAt

variable {queueSize : Nat} {s s' : Intake}

/-! ## Steps of a call -/

section Calls

variable {i : Nat} {call : Submit} {phase : SubmitPhase}

theorem Accounted.calls (h : Accounted s) :
    Exclusion (fun call : Submit => call.phase.queueAgeMu) s.calls :=
  h.lock.tail.of_map

theorem hold_of_appending (call : Submit) (h : appending call ≠ none) :
    call.phase.queueAgeMu = .alone := by
  unfold appending at h
  split at h
  · rename_i now hphase
    rw [hphase]
    rfl
  · exact absurd rfl h

/-- A call moves; what it adds to the counters it no longer owes them. -/
theorem Accounted.change (h : Accounted s) (hcall : s.calls[i]? = some call)
    (hcalls : s'.calls = s.calls.set i { call with phase }) (hworker : s'.worker = s.worker)
    (htakes : Takes id s.holds call.phase.queueAgeMu phase.queueAgeMu)
    (hended : s'.processed = s.processed ∧ s'.failed = s.failed ∧
      s'.permanentRejected = s.permanentRejected)
    (htotal : s'.total + s.accepted + s.dropped + (if undecided call then 1 else 0) =
      s.total + s'.accepted + s'.dropped + if undecided { call with phase } then 1 else 0)
    (haccepted : s'.accepted + s.queue.length + (if unaccepted { call with phase } then 1 else 0) =
      s.accepted + s'.queue.length + if unaccepted call then 1 else 0)
    (hhanded : s'.sent = s'.handed ++ (unpopped s'.worker ++ s'.queue).map QueuedMessage.message)
    (htimes : s'.queueTimes ++ s'.calls.filterMap appending =
      (unpopped s'.worker ++ s'.queue).map QueuedMessage.enqueuedAt) : Accounted s' := by
  obtain ⟨hprocessed, hfailed, hrejected⟩ := hended
  refine ⟨?_, ?_, ?_, ?_, hhanded, htimes⟩
  · have hholds : s'.holds = s.holds.set (i + 1) phase.queueAgeMu := by
      simp [Intake.holds, hcalls, hworker, List.map_set]
    have hhold : s.holds[i + 1]? = some call.phase.queueAgeMu := by simp [Intake.holds, hcall]
    rw [hholds]
    exact exclusion_set h.lock hhold htakes
  · have hset := countP_set_add undecided hcall { call with phase }
    have hold := h.total
    rw [hcalls]
    omega
  · have hset := countP_set_add unaccepted hcall { call with phase }
    have hold := h.accepted
    rw [hcalls, hworker]
    omega
  · rw [hrejected, hprocessed, hworker]
    exact h.rejected

theorem Accounted.submitStep (h : Accounted s) (hcall : s.calls[i]? = some call) {now : Int}
    (hstep : s.submitStep queueSize i call now = some s') : Accounted s' := by
  obtain ⟨message, phase⟩ := call
  -- where the call stands between a send and its append, nobody else does
  have hkeep : ∀ next, appending { message, phase := next } = appending { message, phase } →
      s.queueTimes ++ (s.calls.set i { message, phase := next }).filterMap appending =
        (unpopped s.worker ++ s.queue).map QueuedMessage.enqueuedAt := fun next hsame => by
    rw [filterMap_set_of_eq hcall hsame]
    exact h.times
  have hend : s.processed = s.processed ∧ s.failed = s.failed ∧
      s.permanentRejected = s.permanentRejected := ⟨rfl, rfl, rfl⟩
  cases phase with
  | start =>
    cases hstep
    split
    · exact h.change hcall rfl rfl (.giveUp rfl) hend rfl rfl h.handed (hkeep _ rfl)
    · exact h.change hcall rfl rfl (.giveUp rfl) hend rfl rfl h.handed (hkeep _ rfl)
  | count =>
    cases hstep
    refine h.change hcall rfl rfl (.giveUp rfl) hend ?_ rfl h.handed (hkeep _ rfl)
    show s.total + 1 + s.accepted + s.dropped + 0 = s.total + s.accepted + s.dropped + 1
    omega
  | touch =>
    cases hstep
    exact h.change hcall rfl rfl (.giveUp rfl) hend rfl rfl h.handed (hkeep _ rfl)
  | stamp =>
    cases hstep
    exact h.change hcall rfl rfl (.giveUp rfl) hend rfl rfl h.handed (hkeep _ rfl)
  | lock now =>
    obtain ⟨guard, hstep⟩ := Option.ite_none_right_eq_some.mp hstep
    cases hstep
    exact h.change hcall rfl rfl (.take rfl guard) hend rfl rfl h.handed (hkeep _ rfl)
  | send now =>
    simp only [Intake.submitStep] at hstep
    split at hstep <;> cases hstep
    · have hset := filterMap_set_alone h.calls hcall rfl hold_of_appending
      have hnone : s.queueTimes = (unpopped s.worker ++ s.queue).map QueuedMessage.enqueuedAt := by
        have htimes := hkeep (.send now) rfl
        rwa [hset, show appending { message, phase := .send now } = none from rfl,
          Option.toList_none, List.append_nil] at htimes
      refine h.change hcall rfl rfl (.keep rfl) hend rfl ?_ ?_ ?_
      · show s.accepted + s.queue.length + 1 = s.accepted + (s.queue ++ [_]).length + 0
        rw [List.length_append, List.length_singleton]
        omega
      · show s.sent ++ [message] = _
        rw [h.handed]
        simp [Intake.setCall]
      · show s.queueTimes ++ (s.calls.set i _).filterMap appending = _
        rw [hset, hnone]
        simp [Intake.setCall, appending]
    · exact h.change hcall rfl rfl (.keep rfl) hend rfl rfl h.handed (hkeep _ rfl)
  | append now =>
    cases hstep
    have hset := filterMap_set_alone h.calls hcall rfl hold_of_appending
    refine h.change hcall rfl rfl (.keep rfl) hend rfl rfl h.handed ?_
    have htimes := hkeep (.append now) rfl
    rw [hset] at htimes
    show (s.queueTimes ++ [now]) ++ (s.calls.set i _).filterMap appending = _
    rw [hset]
    simpa [appending, Intake.setCall] using htimes
  | accept =>
    cases hstep
    refine h.change hcall rfl rfl (.keep rfl) hend ?_ ?_ h.handed (hkeep _ rfl)
    · show s.total + s.accepted + s.dropped + 1 = s.total + (s.accepted + 1) + s.dropped + 0
      omega
    · show s.accepted + 1 + s.queue.length + 0 = s.accepted + s.queue.length + 1
      omega
  | unlock ok =>
    cases hstep
    cases ok with
    | true => exact h.change hcall rfl rfl (.giveUp rfl) hend rfl rfl h.handed (hkeep _ rfl)
    | false => exact h.change hcall rfl rfl (.giveUp rfl) hend rfl rfl h.handed (hkeep _ rfl)
  | drop =>
    cases hstep
    refine h.change hcall rfl rfl (.giveUp rfl) hend ?_ rfl h.handed (hkeep _ rfl)
    show s.total + s.accepted + s.dropped + 1 = s.total + s.accepted + (s.dropped + 1) + 0
    omega
  | returned ok => cases hstep

end Calls

/-! ## Steps of the worker -/

theorem lock_worker (h : Accounted s) (hcalls : s'.calls = s.calls)
    (htakes : Takes id s.holds s.worker.queueAgeMu s'.worker.queueAgeMu) :
    Exclusion id s'.holds := by
  have hholds : s'.holds = s.holds.set 0 s'.worker.queueAgeMu := by
    simp [Intake.holds, hcalls]
  rw [hholds]
  exact exclusion_set h.lock rfl htakes

theorem Accounted.workStep (h : Accounted s) {outcome : Option HandleOutcome}
    (hstep : s.workStep outcome = some s') : Accounted s' := by
  have htotal := h.total
  have haccepted := h.accepted
  have hrejected := h.rejected
  have hhanded := h.handed
  have htimes := h.times
  unfold Intake.workStep at hstep
  cases hworker : s.worker with
  | select =>
    simp only [hworker, inHand, unpopped, halfRejected] at hstep haccepted hrejected hhanded htimes
    split at hstep
    · cases hstep
    · rename_i m rest hqueue
      cases hstep
      rw [hqueue] at haccepted hhanded htimes
      refine ⟨lock_worker h rfl (.giveUp rfl), htotal, ?_, hrejected, hhanded, htimes⟩
      show s.accepted + s.calls.countP unaccepted = rest.length + 1 + s.processed + s.failed
      simpa using haccepted
  | received m =>
    simp only [hworker, inHand, unpopped, halfRejected] at hstep haccepted hrejected hhanded htimes
    obtain ⟨guard, hstep⟩ := Option.ite_none_right_eq_some.mp hstep
    cases hstep
    exact ⟨lock_worker h rfl (.take rfl guard), htotal, haccepted, hrejected, hhanded, htimes⟩
  | pop m =>
    simp only [hworker, inHand, unpopped, halfRejected] at hstep haccepted hrejected hhanded htimes
    cases hstep
    have hnone : s.calls.filterMap appending = [] := by
      refine List.filterMap_eq_nil_iff.mpr fun call hcall => ?_
      by_contra hsome
      obtain ⟨j, hj⟩ := List.mem_iff_getElem?.mp hcall
      have hhold : s.holds[j + 1]? = some call.phase.queueAgeMu := by simp [Intake.holds, hj]
      have hfree := h.lock 0 (j + 1) _ _ rfl hhold (by omega) (by rw [hworker]; rfl)
      rw [id, hold_of_appending call hsome] at hfree
      cases hfree
    refine ⟨lock_worker h rfl (.giveUp rfl), htotal, haccepted, hrejected, ?_, ?_⟩
    · show s.sent = (s.handed ++ [m.message]) ++ s.queue.map QueuedMessage.message
      rw [hhanded]
      simp
    · show s.queueTimes.tail ++ s.calls.filterMap appending = s.queue.map QueuedMessage.enqueuedAt
      rw [hnone, List.append_nil] at htimes ⊢
      rw [htimes]
      rfl
  | handling m =>
    simp only [hworker, inHand, unpopped, halfRejected] at hstep haccepted hrejected hhanded htimes
    cases hstep
    exact ⟨lock_worker h rfl (.giveUp rfl), htotal, haccepted, hrejected, hhanded, htimes⟩
  | ended outcome =>
    simp only [hworker, inHand, unpopped, halfRejected] at haccepted hrejected hhanded htimes
    rw [hworker] at hstep
    cases outcome with
    | processed =>
      cases hstep
      refine ⟨lock_worker h rfl (.giveUp rfl), htotal, ?_, Nat.le_succ_of_le hrejected, hhanded,
        htimes⟩
      show s.accepted + s.calls.countP unaccepted = s.queue.length + 0 + (s.processed + 1) + s.failed
      omega
    | permanentReject =>
      cases hstep
      exact ⟨lock_worker h rfl (.giveUp rfl), htotal, haccepted, Nat.succ_le_succ hrejected,
        hhanded, htimes⟩
    | failed =>
      cases hstep
      refine ⟨lock_worker h rfl (.giveUp rfl), htotal, ?_, hrejected, hhanded, htimes⟩
      show s.accepted + s.calls.countP unaccepted = s.queue.length + 0 + s.processed + (s.failed + 1)
      omega
  | rejected =>
    simp only [hworker, inHand, unpopped, halfRejected] at hstep haccepted hrejected hhanded htimes
    cases hstep
    refine ⟨lock_worker h rfl (.giveUp rfl), htotal, ?_, hrejected, hhanded, htimes⟩
    show s.accepted + s.calls.countP unaccepted = s.queue.length + 0 + (s.processed + 1) + s.failed
    omega
  | returned =>
    rw [hworker] at hstep
    cases hstep

/-! ## Runs -/

theorem accounted_started : Accounted startedIntake where
  lock := by
    intro i j p q hp hq hij halone
    have hone : startedIntake.holds = [.free] := rfl
    rw [hone] at hp
    rw [List.mem_singleton.mp (List.mem_of_getElem? hp)] at halone
    cases halone
  total := rfl
  accepted := rfl
  rejected := Nat.le_refl _
  handed := rfl
  times := rfl

theorem Accounted.step (h : Accounted s) {a : IntakeAct} (hstep : s.step queueSize a = some s') :
    Accounted s' := by
  cases a with
  | submit message uuid now =>
    cases hstep
    refine ⟨?_, ?_, ?_, h.rejected, h.handed, ?_⟩
    · have hstart := exclusion_concat (p := Hold.free) h.lock rfl
      simpa [Intake.holds, SubmitPhase.queueAgeMu] using hstart
    · show s.total = s.accepted + s.dropped + (s.calls ++ [_]).countP undecided
      rw [List.countP_append]
      exact h.total
    · show s.accepted + (s.calls ++ [_]).countP unaccepted = _
      rw [List.countP_append]
      exact h.accepted
    · show s.queueTimes ++ (s.calls ++ [_]).filterMap appending = _
      rw [List.filterMap_append]
      simpa [List.filterMap_cons, appending] using h.times
  | advance i now =>
    obtain ⟨call, hcall, hnext⟩ := Option.bind_eq_some_iff.mp hstep
    exact h.submitStep hcall hnext
  | work outcome => exact h.workStep hstep
  | cancel =>
    cases hstep
    exact ⟨h.lock, h.total, h.accepted, h.rejected, h.handed, h.times⟩
  | shutDown =>
    obtain ⟨-, hstep⟩ := Option.ite_none_right_eq_some.mp hstep
    cases hstep
    exact ⟨h.lock, h.total, h.accepted, h.rejected, h.handed, h.times⟩
  | stop =>
    obtain ⟨⟨-, hworker⟩, hstep⟩ := Option.ite_none_right_eq_some.mp hstep
    cases hstep
    have haccepted := h.accepted
    have hrejected := h.rejected
    have hhanded := h.handed
    have htimes := h.times
    rw [hworker] at haccepted hrejected hhanded htimes
    exact ⟨lock_worker h rfl (.giveUp rfl), h.total, haccepted, hrejected, hhanded, htimes⟩

theorem accounted (h : (intake queueSize).Reachable s) : Accounted s := by
  have hinductive : (intake queueSize).InductiveOn (fun _ _ => True) Accounted :=
    { init := fun _ hinit => hinit ▸ accounted_started
      step := fun _ _ _ h _ hstep => h.step hstep }
  exact hinductive.invariant h

/-- What holds at every moment of a run. -/
structure Accounts (queueSize : Nat) (s : Intake) : Prop where
  /-- Calls that have counted a message, and not yet what became of it, make up the
  difference. -/
  total : s.total = s.accepted + s.dropped + s.calls.countP undecided
  /-- So do calls whose message is in the channel before they count it. -/
  accepted : s.accepted + s.calls.countP unaccepted =
    s.queue.length + inHand s.worker + s.processed + s.failed
  rejected : s.permanentRejected ≤ s.processed + halfRejected s.worker
  /-- Messages are handed over once each, in the order of the channel. -/
  handed : s.sent = s.handed ++ (unpopped s.worker ++ s.queue).map QueuedMessage.message
  times : s.calls.filterMap appending = [] → unpopped s.worker = [] →
    s.queueTimes = s.queue.map QueuedMessage.enqueuedAt
  /-- A reader of the status holds `queueAgeMu`. -/
  oldest : s.AgeUnlocked → unpopped s.worker = [] → ∀ now,
    (s.status queueSize now).oldestQueueItemAgeMs =
      (s.queue.head?.map fun m => ageMs now m.enqueuedAt).getD 0

/-- **The intake accounts for every message**, at every moment of every run. -/
theorem intake_accounts (queueSize : Nat) (e : (intake queueSize).Execution) (n : Nat) :
    Accounts queueSize (e.state n) := by
  have h := accounted (e.reachable n)
  have htimes : (e.state n).calls.filterMap appending = [] → unpopped (e.state n).worker = [] →
      (e.state n).queueTimes = (e.state n).queue.map QueuedMessage.enqueuedAt := by
    intro hnone hpopped
    have htimes := h.times
    rwa [hnone, hpopped, List.append_nil] at htimes
  refine ⟨h.total, h.accepted, h.rejected, h.handed, htimes, fun hunlocked hpopped now => ?_⟩
  have hnone : (e.state n).calls.filterMap appending = [] := by
    refine List.filterMap_eq_nil_iff.mpr fun call hcall => ?_
    by_contra hsome
    have hfree := hunlocked _ (List.mem_cons_of_mem _ (List.mem_map_of_mem hcall))
    rw [id, hold_of_appending call hsome] at hfree
    cases hfree
  show ageMs now ((e.state n).queueTimes.headD 0) = _
  rw [htimes hnone hpopped]
  cases (e.state n).queue with
  | nil => rfl
  | cons m rest => rfl

/-- A call counts its message before it knows what becomes of it. -/
theorem counted_before_decided : ¬ ∀ (queueSize : Nat) (s : Intake),
    (intake queueSize).Reachable s → s.total = s.accepted + s.dropped ∧
      s.accepted = s.queue.length + inHand s.worker + s.processed + s.failed ∧
        s.permanentRejected ≤ s.processed ∧ s.handed <+: s.sent ∧
          (unpopped s.worker = [] → s.queueTimes = s.queue.map QueuedMessage.enqueuedAt) := by
  intro h
  obtain ⟨s, hs, htest⟩ := TSys.exists_reachable_of_run (M := intake 1) (s := startedIntake)
    [.submit { ingestID := "m", receivedAtMs := 1, heardAtMs := 1 } "" 1, .advance 0 1,
      .advance 0 1]
    (fun s => s.total = 1 ∧ s.accepted = 0 ∧ s.dropped = 0) rfl (by decide)
  have htotal := (h 1 s hs).1
  obtain ⟨hone, haccepted, hdropped⟩ := of_decide_eq_true htest
  omega

end CartoLive.Theorems.IntakeAccounting
