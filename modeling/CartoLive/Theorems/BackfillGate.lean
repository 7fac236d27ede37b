import CartoLive.App.PublicBackfill
import CartoLive.Theorems.IntakeAccounting
import CartoLive.Theorems.QueueTimes

/-!
# What gates the backfills

The gate takes `accepted > processed` for work in flight. The derived queue counts
every job that it has accepted as processed in the end, unless the enqueue gave up
or the worker returned with it; the client counts a message whose handling fails or
panics as failed only. So in runs where no handling fails, the gate is closed by
work that exists alone (`completed_gates_only_work`), and after one failure it stays
closed (`failure_keeps_gate`).
-/

namespace CartoLive.Theorems.BackfillGate

open CartoLive.Lib CartoLive.Mqtt CartoLive.App CartoLive.Theorems.QueueTimes
  CartoLive.Theorems.IntakeAccounting

variable {β : Type} {queueSize capacity : Nat}

/-! ## What the counters of the derived queue count -/

section Counters

variable {s s' : TimedQueue β}

/-- A job in the channel that `derivedAccepted` does not count. -/
def uncounted : EnqueuePhase β → Nat
  | .append _ .fast | .accept _ .fast _ _ => 1
  | _ => 0

/-- A job that `derivedAccepted` counts and that is not in the channel. -/
def counted : EnqueuePhase β → Nat
  | .storeDepth _ .fast _ _ | .storeOldest _ .fast _ | .unlock _ .fast => 0
  | .storeDepth _ _ _ _ | .storeOldest _ _ _ | .unlock _ _ | .blocked _ | .cancel _ | .erase _ => 1
  | _ => 0

/-- A job that the worker has and that `derivedProcessed` does not count. -/
def inWork : QueueWorkerPhase β → Nat
  | .paused _ | .running _ | .lock _ | .pop _ | .unlock _ _ | .count _ _ | .returned (some _) => 1
  | _ => 0

/-- A call that has given up. -/
def gaveUp (answer : QueueJob β × Bool) : Bool := !answer.2

/-- Every job accepted is processed, in the channel, with the worker or with a call,
or its call gave up. -/
def Counted (s : TimedQueue β) : Prop :=
  s.accepted + uncounted s.enqueuer = s.processed + s.channel.length + inWork s.worker +
    counted s.enqueuer + s.answers.countP gaveUp

theorem Counted.enqueueStep (h : Counted s) (hstep : s.enqueueStep .derived capacity = some s') :
    Counted s' := by
  unfold TimedQueue.enqueueStep at hstep
  unfold Counted at h ⊢
  cases he : s.enqueuer with
  | idle => rw [he] at hstep; cases hstep
  | lock job | relock job | cancel job =>
    simp only [he] at hstep h
    obtain ⟨-, hstep⟩ := Option.ite_none_right_eq_some.mp hstep
    cases hstep
    exact h
  | check job =>
    simp only [he] at hstep h
    cases hstep
    split
    · exact h
    · exact h
  | send job =>
    simp only [he] at hstep h
    cases hstep
    simp only [uncounted, counted, List.length_append, List.length_singleton] at h ⊢
    omega
  | full job =>
    simp only [he] at hstep h
    cases hstep
    exact h
  | append job path | storeDepth job path depth oldest | storeOldest job path oldest =>
    simp only [he] at hstep h
    cases hstep
    cases path <;> exact h
  | accept job path depth oldest =>
    simp only [he] at hstep h
    cases hstep
    cases path <;> simp only [uncounted, counted] at h ⊢ <;> omega
  | unlock job path =>
    cases path with
    | fast =>
      simp only [he] at hstep h
      cases hstep
      rw [List.countP_append]
      exact h
    | slow =>
      simp only [he] at hstep h
      cases hstep
      exact h
    | cancelled =>
      simp only [he] at hstep h
      cases hstep
      rw [List.countP_append]
      simp only [uncounted, counted, List.countP_singleton, gaveUp, Bool.not_false, if_true] at h ⊢
      omega
  | blocked job =>
    simp only [he] at hstep h
    obtain ⟨-, hstep⟩ := Option.ite_none_right_eq_some.mp hstep
    cases hstep
    rw [List.countP_append]
    simp only [uncounted, counted, List.countP_singleton, gaveUp, Bool.not_true, List.length_append,
      List.length_singleton] at h ⊢
    simp only [Bool.false_eq_true, if_false]
    omega
  | erase job =>
    simp only [he] at hstep h
    cases hstep
    exact h

theorem Counted.workStep (h : Counted s) (hstep : s.workStep .derived = some s') :
    Counted s' := by
  unfold TimedQueue.workStep at hstep
  unfold Counted at h ⊢
  cases hw : s.worker with
  | select =>
    simp only [hw] at hstep h
    cases hc : s.channel with
    | nil => rw [hc] at hstep; cases hstep
    | cons job rest =>
      simp only [hc] at hstep h
      cases hstep
      simp only [inWork, List.length_cons] at h ⊢
      omega
  | lock job =>
    simp only [hw] at hstep h
    obtain ⟨-, hstep⟩ := Option.ite_none_right_eq_some.mp hstep
    cases hstep
    exact h
  | count depth oldest =>
    simp only [hw] at hstep h
    cases hstep
    simp only [inWork] at h ⊢
    omega
  | returned job => rw [hw] at hstep; cases hstep
  | _ => simp only [hw] at hstep h; cases hstep; exact h

theorem Counted.step (h : Counted s) {a : QueueAct β}
    (hstep : (derivedQueue β capacity).step s a = some s') : Counted s' := by
  cases a with
  | enqueue job =>
    change TimedQueue.enqueue .derived (fun _ => true) s job = some s' at hstep
    unfold TimedQueue.enqueue at hstep
    split at hstep
    · rename_i hidle
      split at hstep
      · cases hstep
      · simp only [if_true] at hstep
        cases hstep
        unfold Counted at h ⊢
        rw [hidle] at h
        exact h
    · cases hstep
  | advance => exact h.enqueueStep hstep
  | giveUp =>
    change TimedQueue.step .derived (fun _ => true) capacity s .giveUp = some s' at hstep
    simp only [TimedQueue.step] at hstep
    split at hstep
    · rename_i job he
      obtain ⟨-, hstep⟩ := Option.ite_none_right_eq_some.mp hstep
      cases hstep
      unfold Counted at h ⊢
      rw [he] at h
      exact h
    · cases hstep
  | work => exact h.workStep hstep
  | stop =>
    change TimedQueue.step .derived (fun _ => true) capacity s .stop = some s' at hstep
    simp only [TimedQueue.step] at hstep
    split at hstep
    · rename_i hw
      obtain ⟨-, hstep⟩ := Option.ite_none_right_eq_some.mp hstep
      cases hstep
      unfold Counted at h ⊢
      rw [hw] at h
      exact h
    · rename_i job hw
      obtain ⟨-, hstep⟩ := Option.ite_none_right_eq_some.mp hstep
      cases hstep
      unfold Counted at h ⊢
      rw [hw] at h
      exact h
    · cases hstep
  | cancel => cases hstep; exact h

theorem counted_reachable {s : TimedQueue β} (hs : (derivedQueue β capacity).Reachable s) :
    Counted s :=
  TSys.InductiveOn.invariant
    ⟨fun s hi => by rw [show s = .empty from hi]; rfl, fun _ _ _ h _ hstep => h.step hstep⟩ hs

/-! ## What it reports with no job -/

/-- A call is giving up. -/
def cancelling : EnqueuePhase β → Bool
  | .append _ .cancelled | .accept _ .cancelled _ _ | .storeDepth _ .cancelled _ _
  | .storeOldest _ .cancelled _ | .unlock _ .cancelled | .cancel _ | .erase _ => true
  | _ => false

/-- The times of the jobs that the queue has. -/
def allTimes (s : TimedQueue β) : List Nat := s.times ++ timesOf (untimed s.enqueuer)

/-- What the worker has read and not stored, and what is stored, is zero. -/
def Zeroed (s : TimedQueue β) : Prop :=
  match s.worker with
  | .unlock depth oldest | .count depth oldest | .storeDepth depth oldest => depth = 0 ∧ oldest = 0
  | .storeOldest oldest => s.depth = 0 ∧ oldest = 0
  | _ => s.depth = 0 ∧ s.oldestAtMs = 0

/-- While no call has given up: a call that has sent its job holds the mutex, so the
worker has not done the job; and with no job the statistics are zero, or will be. -/
structure Reported (s : TimedQueue β) : Prop where
  sent : returning s.enqueuer ≠ [] → s.channel ++ received s.worker ≠ []
  none : allTimes s = [] → Zeroed s

theorem reported_empty : Reported (TimedQueue.empty : TimedQueue β) := ⟨nofun, fun _ => ⟨rfl, rfl⟩⟩

theorem allTimes_eq {kind : QueueKind} (h : Inv kind s) :
    allTimes s = timesOf (received s.worker ++ s.channel ++ waiting s.enqueuer) := h.times

theorem allTimes_ne_nil {kind : QueueKind} (h : Inv kind s)
    (hjob : received s.worker ++ s.channel ++ waiting s.enqueuer ≠ []) : allTimes s ≠ [] := by
  rw [allTimes_eq h]
  simpa [timesOf] using hjob

/-- A step that leaves the times, the worker and the statistics alone. -/
theorem Reported.keep (h : Reported s) (htimes : allTimes s' = allTimes s)
    (hworker : s'.worker = s.worker) (hdepth : s'.depth = s.depth)
    (holdest : s'.oldestAtMs = s.oldestAtMs) (hsent : returning s'.enqueuer = []) : Reported s' := by
  refine ⟨fun hne => absurd hsent hne, fun hnone => ?_⟩
  have hzero := h.none (htimes ▸ hnone)
  unfold Zeroed at hzero ⊢
  rw [hworker, hdepth, holdest]
  exact hzero

/-- While there is a job, only what a call has sent matters. -/
theorem Reported.of_job {kind : QueueKind} (hinv : Inv kind s)
    (hjob : received s.worker ++ s.channel ++ waiting s.enqueuer ≠ [])
    (hsent : returning s.enqueuer ≠ [] → s.channel ++ received s.worker ≠ []) : Reported s :=
  ⟨hsent, fun hnone => absurd hnone (allTimes_ne_nil hinv hjob)⟩

/-- After the send the job is there until the call has given up the mutex. -/
theorem Reported.of_sent {kind : QueueKind} (hinv : Inv kind s)
    (hsent : s.channel ++ received s.worker ≠ []) : Reported s := by
  refine .of_job hinv (fun hempty => hsent ?_) fun _ => hsent
  have hboth := List.append_eq_nil_iff.mp (List.append_eq_nil_iff.mp hempty).1
  rw [hboth.1, hboth.2]
  rfl

theorem Reported.enqueueStep (hinv : Inv .derived s) (h : Reported s)
    (hcalls : cancelling s.enqueuer = false) (hstep : s.enqueueStep .derived capacity = some s') :
    Reported s' := by
  have hinv' := hinv.enqueueStep hstep
  have hsent := h.sent
  unfold TimedQueue.enqueueStep at hstep
  cases he : s.enqueuer with
  | idle => rw [he] at hstep; cases hstep
  | lock job | relock job =>
    simp only [he] at hstep
    obtain ⟨-, hstep⟩ := Option.ite_none_right_eq_some.mp hstep
    cases hstep
    exact h.keep (by simp [allTimes, he, untimed]) rfl rfl rfl rfl
  | check job =>
    simp only [he] at hstep
    cases hstep
    split
    · exact h.keep (by simp [allTimes, he, untimed]) rfl rfl rfl rfl
    · exact h.keep (by simp [allTimes, he, untimed]) rfl rfl rfl rfl
  | full job =>
    simp only [he] at hstep
    cases hstep
    exact h.keep (by simp [allTimes, he, untimed]) rfl rfl rfl rfl
  | send job =>
    simp only [he] at hstep
    cases hstep
    exact .of_sent hinv' (by simp)
  | append job path | accept job path depth oldest | storeDepth job path depth oldest
  | storeOldest job path oldest =>
    simp only [he] at hstep hcalls hsent
    cases hstep
    cases path with
    | fast => exact .of_sent hinv' (hsent (by rintro ⟨⟩))
    | slow => exact .of_job hinv' (by simp [waiting]) fun hne => absurd rfl hne
    | cancelled => cases hcalls
  | unlock job path =>
    cases path with
    | fast | slow =>
      simp only [he] at hstep
      cases hstep
      exact h.keep (by simp [allTimes, he, untimed]) rfl rfl rfl rfl
    | cancelled => rw [he] at hcalls; cases hcalls
  | blocked job =>
    simp only [he] at hstep
    obtain ⟨-, hstep⟩ := Option.ite_none_right_eq_some.mp hstep
    cases hstep
    exact .of_job hinv' (by simp) fun hne => absurd rfl hne
  | cancel job | erase job => rw [he] at hcalls; cases hcalls

/-- The worker pops only where no call holds the mutex, and reads what it leaves. -/
theorem Reported.workStep (hinv : Inv .derived s) (h : Reported s)
    (hstep : s.workStep .derived = some s') : Reported s' := by
  have hinv' := hinv.workStep hstep
  have hsent := h.sent
  have hnone := h.none
  unfold TimedQueue.workStep at hstep
  cases hw : s.worker with
  | select =>
    simp only [hw] at hstep
    cases hc : s.channel with
    | nil => rw [hc] at hstep; cases hstep
    | cons job rest =>
      simp only [hc] at hstep
      cases hstep
      exact .of_sent hinv' (by simp [received])
  | paused job | running job =>
    simp only [hw] at hstep
    cases hstep
    exact .of_sent hinv' (by simp [received])
  | lock job =>
    simp only [hw] at hstep
    obtain ⟨-, hstep⟩ := Option.ite_none_right_eq_some.mp hstep
    cases hstep
    exact .of_sent hinv' (by simp [received])
  | pop job =>
    simp only [hw] at hstep
    cases hstep
    have hfree : ¬ s.enqueuer.Holds := fun he => hinv.exclusion ⟨he, by rw [hw]; trivial⟩
    have hreturning : returning s.enqueuer = [] := by
      unfold returning
      split
      case h_6 => rfl
      all_goals rename_i he; exact absurd (by rw [he]; trivial) hfree
    refine ⟨fun hne => absurd hreturning hne, fun hempty => ?_⟩
    have hchannel : s.channel = [] := by
      have hall := allTimes_eq hinv'
      rw [hempty] at hall
      simp only [received, List.nil_append, timesOf] at hall
      exact (List.append_eq_nil_iff.mp (List.map_eq_nil_iff.mp hall.symm)).1
    have htimes : s.times.tail = [] := (List.append_eq_nil_iff.mp hempty).1
    exact ⟨by rw [hchannel]; rfl, by rw [htimes]; rfl⟩
  | unlock depth oldest | count depth oldest =>
    simp only [hw] at hstep hsent
    cases hstep
    unfold Zeroed at hnone
    rw [hw] at hnone
    exact ⟨hsent, hnone⟩
  | storeDepth depth oldest =>
    simp only [hw] at hstep hsent
    cases hstep
    unfold Zeroed at hnone
    rw [hw] at hnone
    exact ⟨hsent, hnone⟩
  | storeOldest oldest =>
    simp only [hw] at hstep hsent
    cases hstep
    unfold Zeroed at hnone
    rw [hw] at hnone
    exact ⟨hsent, hnone⟩
  | release =>
    simp only [hw] at hstep hsent
    cases hstep
    unfold Zeroed at hnone
    rw [hw] at hnone
    exact ⟨hsent, hnone⟩
  | returned job => rw [hw] at hstep; cases hstep

theorem Reported.step (hinv : Inv .derived s) (h : Reported s)
    (hcalls : cancelling s.enqueuer = false) {a : QueueAct β}
    (hstep : (derivedQueue β capacity).step s a = some s') (hcalls' : cancelling s'.enqueuer = false) :
    Reported s' := by
  cases a with
  | enqueue job =>
    change TimedQueue.enqueue .derived (fun _ => true) s job = some s' at hstep
    unfold TimedQueue.enqueue at hstep
    split at hstep
    · rename_i hidle
      split at hstep
      · cases hstep
      · simp only [if_true] at hstep
        cases hstep
        exact h.keep (by simp [allTimes, hidle, untimed]) rfl rfl rfl rfl
    · cases hstep
  | advance => exact h.enqueueStep hinv hcalls hstep
  | giveUp =>
    change TimedQueue.step .derived (fun _ => true) capacity s .giveUp = some s' at hstep
    simp only [TimedQueue.step] at hstep
    split at hstep
    · obtain ⟨-, hstep⟩ := Option.ite_none_right_eq_some.mp hstep
      cases hstep
      cases hcalls'
    · cases hstep
  | work => exact h.workStep hinv hstep
  | stop =>
    change TimedQueue.step .derived (fun _ => true) capacity s .stop = some s' at hstep
    have hinv' := hinv.step hstep
    simp only [TimedQueue.step] at hstep
    split at hstep
    · rename_i hw
      obtain ⟨-, hstep⟩ := Option.ite_none_right_eq_some.mp hstep
      cases hstep
      have hsent := h.sent
      have hnone := h.none
      unfold Zeroed at hnone
      rw [hw] at hsent hnone
      exact ⟨hsent, hnone⟩
    · obtain ⟨-, hstep⟩ := Option.ite_none_right_eq_some.mp hstep
      cases hstep
      exact .of_sent hinv' (by simp [received])
    · cases hstep
  | cancel => cases hstep; exact ⟨h.sent, h.none⟩

/-! ## Calls that give up -/

/-- The answers are the same, and no call begins; or the call has answered. -/
theorem answers_step {a : QueueAct β} (hstep : (derivedQueue β capacity).step s a = some s') :
    (s'.answers = s.answers ∧ ((∀ job, a ≠ .enqueue job) → s.enqueuer = .idle →
        s'.enqueuer = .idle) ∧ (cancelling s.enqueuer = true → cancelling s'.enqueuer = true)) ∨
      ∃ answer, s'.answers = s.answers ++ [answer] ∧ s'.enqueuer = .idle ∧ s.enqueuer ≠ .idle ∧
        (cancelling s.enqueuer = true → gaveUp answer = true) := by
  change TimedQueue.step .derived (fun _ => true) capacity s a = some s' at hstep
  cases a with
  | enqueue job =>
    simp only [TimedQueue.step, TimedQueue.enqueue] at hstep
    split at hstep
    · rename_i hidle
      split at hstep
      · cases hstep
      · simp only [if_true] at hstep
        cases hstep
        exact .inl ⟨rfl, fun hne => absurd rfl (hne job), by rw [hidle]; rintro ⟨⟩⟩
    · cases hstep
  | advance =>
    simp only [TimedQueue.step, TimedQueue.enqueueStep] at hstep
    cases he : s.enqueuer with
    | idle => rw [he] at hstep; cases hstep
    | lock job | relock job =>
      simp only [he] at hstep
      obtain ⟨-, hstep⟩ := Option.ite_none_right_eq_some.mp hstep
      cases hstep
      exact .inl ⟨rfl, by rintro _ ⟨⟩, by rintro ⟨⟩⟩
    | check job =>
      simp only [he] at hstep
      cases hstep
      exact .inl ⟨rfl, by rintro _ ⟨⟩, by rintro ⟨⟩⟩
    | send job | full job =>
      simp only [he] at hstep
      cases hstep
      exact .inl ⟨rfl, by rintro _ ⟨⟩, by rintro ⟨⟩⟩
    | append job path | accept job path depth oldest | storeDepth job path depth oldest
    | storeOldest job path oldest =>
      simp only [he] at hstep
      cases hstep
      exact .inl ⟨rfl, by rintro _ ⟨⟩, by cases path <;> exact id⟩
    | unlock job path =>
      cases path with
      | fast =>
        simp only [he] at hstep
        cases hstep
        exact .inr ⟨_, rfl, rfl, by rintro ⟨⟩, by rintro ⟨⟩⟩
      | slow =>
        simp only [he] at hstep
        cases hstep
        exact .inl ⟨rfl, by rintro _ ⟨⟩, by rintro ⟨⟩⟩
      | cancelled =>
        simp only [he] at hstep
        cases hstep
        exact .inr ⟨_, rfl, rfl, by rintro ⟨⟩, fun _ => rfl⟩
    | blocked job =>
      simp only [he] at hstep
      obtain ⟨-, hstep⟩ := Option.ite_none_right_eq_some.mp hstep
      cases hstep
      exact .inr ⟨_, rfl, rfl, by rintro ⟨⟩, by rintro ⟨⟩⟩
    | cancel job =>
      simp only [he] at hstep
      obtain ⟨-, hstep⟩ := Option.ite_none_right_eq_some.mp hstep
      cases hstep
      exact .inl ⟨rfl, by rintro _ ⟨⟩, fun _ => rfl⟩
    | erase job =>
      simp only [he] at hstep
      cases hstep
      exact .inl ⟨rfl, by rintro _ ⟨⟩, fun _ => rfl⟩
  | giveUp =>
    simp only [TimedQueue.step] at hstep
    split at hstep
    · rename_i job he
      obtain ⟨-, hstep⟩ := Option.ite_none_right_eq_some.mp hstep
      cases hstep
      refine .inl ⟨rfl, fun _ hidle => ?_, fun _ => rfl⟩
      rw [he] at hidle
      cases hidle
    · cases hstep
  | work =>
    simp only [TimedQueue.step, TimedQueue.workStep] at hstep
    have hsame : ∀ t : TimedQueue β, t.answers = s.answers → t.enqueuer = s.enqueuer →
        t.answers = s.answers ∧ ((∀ job, (QueueAct.work : QueueAct β) ≠ .enqueue job) →
          s.enqueuer = .idle → t.enqueuer = .idle) ∧
          (cancelling s.enqueuer = true → cancelling t.enqueuer = true) :=
      fun t ha he => ⟨ha, fun _ => he ▸ id, he ▸ id⟩
    split at hstep
    case h_1 =>
      split at hstep
      · cases hstep
      · cases hstep; exact .inl (hsame _ rfl rfl)
    case h_4 =>
      obtain ⟨-, hstep⟩ := Option.ite_none_right_eq_some.mp hstep
      cases hstep
      exact .inl (hsame _ rfl rfl)
    all_goals cases hstep; try exact .inl (hsame _ rfl rfl)
  | stop =>
    simp only [TimedQueue.step] at hstep
    split at hstep
    · obtain ⟨-, hstep⟩ := Option.ite_none_right_eq_some.mp hstep
      cases hstep; exact .inl ⟨rfl, fun _ => id, id⟩
    · obtain ⟨-, hstep⟩ := Option.ite_none_right_eq_some.mp hstep
      cases hstep; exact .inl ⟨rfl, fun _ => id, id⟩
    · cases hstep
  | cancel => cases hstep; exact .inl ⟨rfl, fun _ => id, id⟩

/-- Where no call has given up or is giving up, the statistics are those of the jobs. -/
theorem reported_reachable {s : TimedQueue β} (hs : (derivedQueue β capacity).Reachable s) :
    s.answers.countP gaveUp = 0 → cancelling s.enqueuer = false → Reported s := by
  induction hs with
  | init hi =>
    intro _ _
    cases hi
    exact reported_empty
  | @step s s' a hs _ hstep ih =>
    intro hanswers' hcalls'
    have hback : s.answers.countP gaveUp = 0 ∧ cancelling s.enqueuer = false := by
      rcases answers_step hstep with ⟨hsame, -, hcancel⟩ | ⟨answer, hnew, -, -, hcancel⟩
      · refine ⟨hsame ▸ hanswers', Bool.eq_false_iff.mpr fun hc => ?_⟩
        rw [hcancel hc] at hcalls'
        cases hcalls'
      · rw [hnew, List.countP_append, Nat.add_eq_zero_iff, List.countP_singleton] at hanswers'
        refine ⟨hanswers'.1, Bool.eq_false_iff.mpr fun hc => ?_⟩
        rw [hcancel hc] at hanswers'
        cases hanswers'.2
    exact (ih hback.1 hback.2).step (inv hs) hback.2 hstep hcalls'

end Counters

/-! ## The client and the derived queue together -/

/-- The handler runs. -/
def handles : DispatchPhase → Bool
  | .handling _ => true
  | _ => false

/-- No handling fails or panics, and the worker of the derived queue does not return
with a job that it was holding back. -/
def Completes (s : LiveIngest β) : LiveIngestAct β → Prop
  | .intake (.work outcome) => handles s.intake.worker = true →
      outcome = some .processed ∨ outcome = some .permanentReject
  | .queue .stop => received s.derived.worker = []
  | _ => True

instance [DecidableEq β] (s : LiveIngest β) (a : LiveIngestAct β) : Decidable (Completes s a) := by
  unfold Completes
  split <;> infer_instance

/-- What the client and the derived queue know of each other in such runs. -/
structure Coupled (queueSize capacity : Nat) (s : LiveIngest β) : Prop where
  intake : (Mqtt.intake queueSize).Reachable s.intake
  derived : (derivedQueue β capacity).Reachable s.derived
  /-- Only the handler enqueues. -/
  calls : handles s.intake.worker = false → s.derived.enqueuer = .idle ∧ s.enqueued = none
  answered : s.enqueued ≠ none → s.derived.enqueuer = .idle
  /-- The message of a call that gave up stays in hand. -/
  refused : s.derived.answers.countP gaveUp ≠ 0 → s.enqueued = some false
  failed : s.intake.failed = 0 ∧ s.intake.worker ≠ .ended .failed
  held : ∀ job, s.derived.worker ≠ .returned (some job)

/-- A step of the client that the handler has no part in. -/
theorem intake_step {s s' : Intake} {a : IntakeAct} (ha : ∀ outcome, a ≠ .work outcome)
    (hstep : s.step queueSize a = some s') :
    s'.failed = s.failed ∧ (s'.worker = s.worker ∨ (s.worker = .select ∧ s'.worker = .returned)) := by
  cases a with
  | submit message uuid now => cases hstep; exact ⟨rfl, .inl rfl⟩
  | advance i now =>
    obtain ⟨call, -, hcall⟩ := Option.bind_eq_some_iff.mp hstep
    unfold Intake.submitStep at hcall
    split at hcall
    case h_5 =>
      obtain ⟨-, hcall⟩ := Option.ite_none_right_eq_some.mp hcall
      cases hcall
      exact ⟨rfl, .inl rfl⟩
    case h_6 => split at hcall <;> cases hcall <;> exact ⟨rfl, .inl rfl⟩
    all_goals cases hcall; try exact ⟨rfl, .inl rfl⟩
  | work outcome => exact absurd rfl (ha outcome)
  | cancel => cases hstep; exact ⟨rfl, .inl rfl⟩
  | shutDown =>
    obtain ⟨-, hstep⟩ := Option.ite_none_right_eq_some.mp hstep
    cases hstep
    exact ⟨rfl, .inl rfl⟩
  | stop =>
    obtain ⟨hselect, hstep⟩ := Option.ite_none_right_eq_some.mp hstep
    cases hstep
    exact ⟨rfl, .inr ⟨hselect.2, rfl⟩⟩

/-- A step of the dispatcher outside the handler. -/
theorem work_step {s s' : Intake} {outcome : Option HandleOutcome}
    (hhandles : handles s.worker = false) (hended : s.worker ≠ .ended .failed)
    (hstep : s.workStep outcome = some s') :
    s'.failed = s.failed ∧ s'.worker ≠ .ended .failed := by
  unfold Intake.workStep at hstep
  split at hstep
  · split at hstep
    · cases hstep
    · cases hstep; exact ⟨rfl, nofun⟩
  · obtain ⟨-, hstep⟩ := Option.ite_none_right_eq_some.mp hstep
    cases hstep
    exact ⟨rfl, nofun⟩
  · cases hstep; exact ⟨rfl, nofun⟩
  · rename_i hw
    rw [hw] at hhandles
    cases hhandles
  · cases hstep; exact ⟨rfl, nofun⟩
  · cases hstep; exact ⟨rfl, nofun⟩
  · rename_i hw
    exact absurd hw hended
  · cases hstep; exact ⟨rfl, nofun⟩
  · cases hstep

variable {s s' : LiveIngest β}

/-- A step of the client outside the handler, with nothing enqueued. -/
theorem Coupled.apart (h : Coupled queueSize capacity s) (hhandles : handles s.intake.worker = false)
    {intake : Intake} (hintake : (Mqtt.intake queueSize).Reachable intake)
    (hfailed : intake.failed = 0 ∧ intake.worker ≠ .ended .failed) :
    Coupled queueSize capacity { s with intake } :=
  { intake := hintake
    derived := h.derived
    calls := fun _ => h.calls hhandles
    answered := h.answered
    refused := h.refused
    failed := hfailed
    held := h.held }

theorem Coupled.work (h : Coupled queueSize capacity s) {outcome : Option HandleOutcome}
    (hcompletes : Completes s (.intake (.work outcome)))
    (hstep : LiveIngest.step queueSize capacity s (.intake (.work outcome)) = some s') :
    Coupled queueSize capacity s' := by
  unfold LiveIngest.step at hstep
  cases hw : s.intake.worker with
  | handling m =>
    simp only [hw] at hstep
    obtain ⟨hends, hstep⟩ := Option.ite_none_right_eq_some.mp hstep
    obtain ⟨intake, hwork, hs'⟩ := Option.map_eq_some_iff.mp hstep
    cases hs'
    have hgood := hcompletes (by rw [hw]; rfl)
    -- the handler has not been refused, or it would have to fail
    have hidle : s.derived.enqueuer = .idle ∧ s.enqueued ≠ some false := by
      unfold LiveIngest.handlerEnds at hends
      split at hends
      · rename_i he hn
        exact ⟨he, by rw [hn]; exact nofun⟩
      · rename_i he hn
        exact ⟨he, by rw [hn]; exact nofun⟩
      · rename_i he hn
        rw [decide_eq_true_eq] at hends
        rcases hgood with hgood | hgood <;> rw [hgood] at hends <;> cases hends
      · cases hends
    have hended : intake.failed = s.intake.failed ∧ intake.worker ≠ .ended .failed := by
      simp only [Intake.workStep, hw] at hwork
      cases hwork
      refine ⟨rfl, ?_⟩
      rcases hgood with hgood | hgood <;> rw [hgood] <;> exact nofun
    exact {
      intake := h.intake.step trivial (a := .work outcome) hwork
      derived := h.derived
      calls := fun _ => ⟨hidle.1, rfl⟩
      answered := fun hne => absurd rfl hne
      refused := fun hne => absurd (h.refused hne) hidle.2
      failed := ⟨hended.1.trans h.failed.1, hended.2⟩
      held := h.held }
  | _ =>
    simp only [hw] at hstep
    obtain ⟨intake, hwork, hs'⟩ := Option.map_eq_some_iff.mp hstep
    cases hs'
    have hhandles : handles s.intake.worker = false := by rw [hw]; rfl
    have hkept := work_step hhandles h.failed.2 hwork
    exact h.apart hhandles (h.intake.step trivial (a := .work outcome) hwork)
      ⟨hkept.1.trans h.failed.1, hkept.2⟩

/-- The other steps of the client. -/
theorem Coupled.intakeStep (h : Coupled queueSize capacity s) {a : IntakeAct}
    (ha : ∀ outcome, a ≠ .work outcome)
    (hmap : (s.intake.step queueSize a).map (fun intake => { s with intake }) = some s') :
    Coupled queueSize capacity s' := by
  obtain ⟨intake, hstep, hs'⟩ := Option.map_eq_some_iff.mp hmap
  cases hs'
  have hintake := h.intake.step trivial hstep
  obtain ⟨hfailed, hworker | ⟨hselect, hreturned⟩⟩ := intake_step ha hstep
  · exact {
      intake := hintake
      derived := h.derived
      calls := fun hh => h.calls (hworker ▸ hh)
      answered := h.answered
      refused := h.refused
      failed := ⟨hfailed.trans h.failed.1, fun he => h.failed.2 (hworker ▸ he)⟩
      held := h.held }
  · refine h.apart (by rw [hselect]; rfl) hintake ⟨hfailed.trans h.failed.1, ?_⟩
    rw [hreturned]
    exact nofun

/-- A step of the derived queue that does not begin a call. -/
theorem Coupled.queueStep (h : Coupled queueSize capacity s) {a : QueueAct β}
    (hcompletes : Completes s (.queue a)) (ha : ∀ job, a ≠ .enqueue job) {derived : TimedQueue β}
    (hstep : (derivedQueue β capacity).step s.derived a = some derived) :
    Coupled queueSize capacity { s with
      derived
      enqueued := (newAnswer s.derived.answers derived.answers).or s.enqueued } := by
  have hderived := h.derived.step trivial hstep
  have hheld : ∀ job, derived.worker ≠ .returned (some job) := fun job => by
    rcases worker_step hstep with hwork | ⟨hsame, -⟩ | ⟨rfl, -, hreturned⟩
    · exact worker_of_workStep hwork _
    · exact hsame ▸ h.held job
    · rw [hreturned, show received s.derived.worker = [] from hcompletes]
      exact nofun
  rcases answers_step hstep with ⟨hsame, hidle, -⟩ | ⟨answer, hnew, hidle, hbusy, -⟩
  · have hnone : newAnswer s.derived.answers derived.answers = none := by
      simp [newAnswer, hsame]
    rw [hnone, Option.none_or]
    exact {
      intake := h.intake
      derived := hderived
      calls := fun hh => ⟨hidle ha (h.calls hh).1, (h.calls hh).2⟩
      answered := fun hne => hidle ha (h.answered hne)
      refused := fun hne => h.refused (hsame ▸ hne)
      failed := h.failed
      held := hheld }
  · have hanswer : newAnswer s.derived.answers derived.answers = some answer.2 := by
      simp [newAnswer, hnew]
    rw [hanswer, Option.some_or]
    have hhandles : handles s.intake.worker = true := by
      cases hh : handles s.intake.worker with
      | true => rfl
      | false => exact absurd (h.calls hh).1 hbusy
    have hnone : s.enqueued = none := by
      cases hn : s.enqueued with
      | none => rfl
      | some b => exact absurd (h.answered (by rw [hn]; exact nofun)) hbusy
    exact {
      intake := h.intake
      derived := hderived
      calls := fun hh => by rw [hhandles] at hh; cases hh
      answered := fun _ => hidle
      refused := fun hne => by
        -- earlier calls did not give up, so this one did
        have hold : s.derived.answers.countP gaveUp = 0 := by
          by_contra hold
          rw [h.refused hold] at hnone
          cases hnone
        rw [hnew, List.countP_append, hold, Nat.zero_add, List.countP_singleton] at hne
        cases hb : answer.2 with
        | false => rfl
        | true => simp [gaveUp, hb] at hne
      failed := h.failed
      held := hheld }

theorem Coupled.enqueue (h : Coupled queueSize capacity s) {job : QueueJob β}
    (hmay : s.mayEnqueue = true) {derived : TimedQueue β}
    (hstep : (derivedQueue β capacity).step s.derived (.enqueue job) = some derived) :
    Coupled queueSize capacity { s with derived } := by
  have hnow : handles s.intake.worker = true ∧ s.enqueued = none := by
    unfold LiveIngest.mayEnqueue at hmay
    split at hmay
    · rename_i hw hn
      exact ⟨by rw [hw]; rfl, hn⟩
    · cases hmay
  have hanswers : derived.answers = s.derived.answers ∧ derived.worker = s.derived.worker := by
    change TimedQueue.enqueue .derived (fun _ => true) s.derived job = some derived at hstep
    unfold TimedQueue.enqueue at hstep
    split at hstep
    · split at hstep
      · cases hstep
      · simp only [if_true] at hstep
        cases hstep
        exact ⟨rfl, rfl⟩
    · cases hstep
  exact {
    intake := h.intake
    derived := h.derived.step trivial hstep
    calls := fun hh => by rw [hnow.1] at hh; cases hh
    answered := fun hne => absurd hnow.2 hne
    refused := fun hne => h.refused (hanswers.1 ▸ hne)
    failed := h.failed
    held := fun held => hanswers.2 ▸ h.held held }

theorem Coupled.step (h : Coupled queueSize capacity s) {a : LiveIngestAct β}
    (hcompletes : Completes s a)
    (hstep : (liveIngest β queueSize capacity).step s a = some s') :
    Coupled queueSize capacity s' := by
  change LiveIngest.step queueSize capacity s a = some s' at hstep
  cases a with
  | intake a =>
    cases a with
    | work outcome => exact h.work hcompletes hstep
    | cancel => cases hstep
    | submit message uuid now => exact h.intakeStep (a := .submit message uuid now) nofun hstep
    | advance i now => exact h.intakeStep (a := .advance i now) nofun hstep
    | shutDown => exact h.intakeStep (a := .shutDown) nofun hstep
    | stop => exact h.intakeStep (a := .stop) nofun hstep
  | queue a =>
    cases a with
    | enqueue job =>
      obtain ⟨hmay, hstep⟩ := Option.ite_none_right_eq_some.mp hstep
      obtain ⟨derived, hderived, hs'⟩ := Option.map_eq_some_iff.mp hstep
      cases hs'
      exact h.enqueue hmay hderived
    | cancel => cases hstep
    | advance | giveUp | work | stop =>
      obtain ⟨derived, hderived, hs'⟩ := Option.map_eq_some_iff.mp hstep
      cases hs'
      exact h.queueStep hcompletes nofun hderived
  | cancel =>
    cases hstep
    exact {
      intake := h.intake.step (a := .cancel) trivial rfl
      derived := h.derived.step (a := .cancel) trivial rfl
      calls := h.calls
      answered := h.answered
      refused := h.refused
      failed := h.failed
      held := h.held }

theorem coupled (h : (liveIngest β queueSize capacity).ReachOn Completes s) :
    Coupled queueSize capacity s := by
  refine TSys.InductiveOn.invariant ⟨fun s hi => ?_, fun _ _ _ h hok hstep => h.step hok hstep⟩ h
  cases hi
  exact {
    intake := .init rfl
    derived := .init rfl
    calls := fun _ => ⟨rfl, rfl⟩
    answered := fun _ => rfl
    refused := fun hne => absurd rfl hne
    failed := ⟨rfl, nofun⟩
    held := nofun }

/-! ## The result -/

/-- The intake queue is empty, no message is being handled, no derived job is queued
or running, storage pressure is ok, and the last message is older than the quiet
window. -/
structure Quiet (s : LiveIngest β) (storageState : String) (nowMs : Int) : Prop where
  queue : s.intake.queue = []
  handled : inHand s.intake.worker = 0
  queued : s.derived.channel = []
  running : s.derived.worker = .select ∨ ∃ job, s.derived.worker = .returned job
  storage : storageState = "ok"
  quiet : 0 < s.intake.lastMessageAt →
    s.intake.lastMessageAt + publicBackfillLiveQuietWindow ≤ nowMs

/-- The gate, for what the statistics tell at a moment. -/
def gate (queueSize : Nat) (s : LiveIngest β) (storageState : String) (nowMs : Int) :
    Bool × String :=
  publicBackfillAllowed (s.intake.status queueSize nowMs) s.derived.snapshot storageState nowMs

/-- The gate is open where nothing is under way, and the tests for work in flight
are true only while there is such work. -/
structure GatedByWork (queueSize : Nat) (s : LiveIngest β) : Prop where
  quiet : ∀ storageState nowMs, Quiet s storageState nowMs →
    gate queueSize s storageState nowMs = (true, "")
  /-- A message is queued or in the hands of the dispatcher. -/
  primary : s.intake.accepted > s.intake.processed →
    s.intake.queue ≠ [] ∨ inHand s.intake.worker ≠ 0
  /-- A job is queued, running, or being enqueued for the message in hand. -/
  derived : s.derived.accepted > s.derived.processed →
    s.derived.channel ≠ [] ∨ inWork s.derived.worker ≠ 0 ∨ inHand s.intake.worker ≠ 0

/-- With no message in hand there is no call. -/
theorem Coupled.no_call (h : Coupled queueSize capacity s) (hhand : inHand s.intake.worker = 0) :
    s.derived.enqueuer = .idle ∧ s.derived.answers.countP gaveUp = 0 := by
  have hhandles : handles s.intake.worker = false := by
    cases hw : s.intake.worker with
    | handling m => rw [hw] at hhand; cases hhand
    | _ => rfl
  refine ⟨(h.calls hhandles).1, ?_⟩
  by_contra hne
  have hfalse := h.refused hne
  rw [(h.calls hhandles).2] at hfalse
  cases hfalse

theorem Coupled.accepted_le (h : Coupled queueSize capacity s) :
    s.intake.accepted ≤ s.intake.processed + s.intake.queue.length + inHand s.intake.worker := by
  have haccepted := (accounted h.intake).accepted
  have hfailed := h.failed.1
  omega

theorem Coupled.derivedAccepted_le (h : Coupled queueSize capacity s)
    (hhand : inHand s.intake.worker = 0) : s.derived.accepted ≤
      s.derived.processed + s.derived.channel.length + inWork s.derived.worker := by
  obtain ⟨hidle, hanswers⟩ := h.no_call hhand
  have hcounted := counted_reachable h.derived
  unfold Counted at hcounted
  rw [hidle, hanswers] at hcounted
  simp only [uncounted, counted] at hcounted
  omega

/-- With no message and no job there is nothing in the statistics. -/
theorem Coupled.statistics (h : Coupled queueSize capacity s) {storageState : String} {nowMs : Int}
    (hquiet : Quiet s storageState nowMs) :
    s.derived.depth = 0 ∧ s.derived.oldestAtMs = 0 ∧ inWork s.derived.worker = 0 := by
  obtain ⟨hidle, hanswers⟩ := h.no_call hquiet.handled
  have hreported := reported_reachable h.derived hanswers (by rw [hidle]; rfl)
  have hreceived : received s.derived.worker = [] ∧ inWork s.derived.worker = 0 := by
    rcases hquiet.running with hw | ⟨job, hw⟩
    · rw [hw]
      exact ⟨rfl, rfl⟩
    · cases job with
      | none => rw [hw]; exact ⟨rfl, rfl⟩
      | some job => exact absurd hw (h.held job)
  have hnone : allTimes s.derived = [] := by
    rw [allTimes_eq (inv h.derived), hreceived.1, hquiet.queued, hidle]
    rfl
  have hzero := hreported.none hnone
  unfold Zeroed at hzero
  rcases hquiet.running with hw | ⟨job, hw⟩
  · rw [hw] at hzero
    exact ⟨hzero.1, hzero.2, hreceived.2⟩
  · rw [hw] at hzero
    exact ⟨hzero.1, hzero.2, hreceived.2⟩

/-- The times of the intake are empty with it. -/
theorem Coupled.queueTimes (h : Coupled queueSize capacity s) (hqueue : s.intake.queue = [])
    (hhand : inHand s.intake.worker = 0) : s.intake.queueTimes = [] := by
  have htimes := (accounted h.intake).times
  have hunpopped : unpopped s.intake.worker = [] := by
    cases hw : s.intake.worker with
    | received m | pop m => rw [hw] at hhand; cases hhand
    | _ => rfl
  rw [hunpopped, hqueue] at htimes
  exact (List.append_eq_nil_iff.mp htimes).1

theorem Coupled.gatedByWork (h : Coupled queueSize capacity s) : GatedByWork queueSize s := by
  refine ⟨fun storageState nowMs hquiet => ?_, fun hflight => ?_, fun hflight => ?_⟩
  · have hprimary := h.accepted_le
    have hderived := h.derivedAccepted_le hquiet.handled
    have htimes := h.queueTimes hquiet.queue hquiet.handled
    obtain ⟨hdepth, holdest, hwork⟩ := h.statistics hquiet
    rw [hquiet.queue, hquiet.handled] at hprimary
    rw [hquiet.queued, hwork] at hderived
    unfold gate publicBackfillAllowed
    rw [if_neg (by rw [hquiet.storage]; decide), if_neg, if_neg, if_neg]
    · -- the derived queue
      simp only [TimedQueue.snapshot, hdepth, holdest, ageMs, List.length_nil] at hderived ⊢
      omega
    · -- the last message
      have hlast := hquiet.quiet
      simp only [Intake.status]
      intro hrecent
      rw [if_pos hrecent.1] at hrecent
      have hold := hlast hrecent.1
      omega
    · -- the client
      simp only [Intake.status, Intake.queueOldestLocked, hquiet.queue, htimes, ageMs,
        List.headD_nil, List.length_nil] at hprimary ⊢
      omega
  · have hle := h.accepted_le
    by_contra hnone
    obtain ⟨hqueue, hhand⟩ := not_or.mp hnone
    rw [not_not.mp hqueue, not_not.mp hhand, List.length_nil] at hle
    omega
  · by_contra hnone
    obtain ⟨hchannel, hrest⟩ := not_or.mp hnone
    obtain ⟨hwork, hhand⟩ := not_or.mp hrest
    have hle := h.derivedAccepted_le (not_not.mp hhand)
    rw [not_not.mp hchannel, not_not.mp hwork, List.length_nil] at hle
    omega

theorem completed_gates_only_work (β : Type) (queueSize capacity : Nat) (s : LiveIngest β)
    (hs : (liveIngest β queueSize capacity).ReachOn Completes s) : GatedByWork queueSize s :=
  (coupled hs).gatedByWork

/-- A message goes into the channel and to the handler. -/
def handOver : List (LiveIngestAct Unit) :=
  [.intake (.submit ⟨"a", 1000, 1000⟩ "" 0)] ++ .replicate 9 (.intake (.advance 0 1000)) ++
    .replicate 3 (.intake (.work none))

/-- Nothing is under way at `nowMs`, and a message was accepted. -/
def quietAfterMessage (nowMs : Int) (s : LiveIngest Unit) : Bool :=
  decide (s.intake.accepted = 1 ∧ s.intake.queue = [] ∧ s.intake.worker = .select ∧
    s.derived.channel = [] ∧ s.derived.worker = .select ∧
    s.intake.lastMessageAt + publicBackfillLiveQuietWindow ≤ nowMs)

theorem quiet_of_quietAfterMessage {nowMs : Int} {s : LiveIngest Unit}
    (h : quietAfterMessage nowMs s = true) : s.intake.accepted = 1 ∧ Quiet s "ok" nowMs := by
  obtain ⟨haccepted, hqueue, hworker, hchannel, hrunning, hlast⟩ := of_decide_eq_true h
  exact ⟨haccepted, hqueue, by rw [hworker]; rfl, hchannel, .inl hrunning, rfl, fun _ => hlast⟩

/-- The gate is open after a message was processed and its job was done. -/
theorem completed_gates_only_work_open : ∃ s : LiveIngest Unit,
    s.intake.accepted = 1 ∧ Quiet s "ok" 3000 ∧ gate 4 s "ok" 3000 = (true, "") := by
  obtain ⟨s, hs, htest⟩ := TSys.exists_reachOn_of_runOn (M := liveIngest Unit 4 4) Completes
    (handOver ++ [.queue (.enqueue ⟨(), 1001⟩)] ++ .replicate 8 (.queue .advance) ++
      .replicate 2 (.intake (.work (some .processed))) ++ .replicate 9 (.queue .work))
    (quietAfterMessage 3000) rfl (by decide +kernel)
  obtain ⟨haccepted, hquiet⟩ := quiet_of_quietAfterMessage htest
  exact ⟨s, haccepted, hquiet, (completed_gates_only_work Unit 4 4 s hs).quiet _ _ hquiet⟩

/-- One message fails, and the gate stays closed. -/
theorem failure_keeps_gate : ¬ ∀ s : LiveIngest Unit,
    (liveIngest Unit 4 4).Reachable s → GatedByWork 4 s := by
  intro h
  obtain ⟨s, hs, htest⟩ := TSys.exists_reachable_of_run (M := liveIngest Unit 4 4)
    (handOver ++ .replicate 2 (.intake (.work (some .failed))))
    (fun s => quietAfterMessage 3000 s && decide (s.intake.processed = 0)) rfl (by decide +kernel)
  obtain ⟨hquiet, hprocessed⟩ := (Bool.and_eq_true _ _).mp htest
  obtain ⟨haccepted, hquiet⟩ := quiet_of_quietAfterMessage hquiet
  have hflight : s.intake.accepted > s.intake.processed := by
    rw [haccepted, of_decide_eq_true hprocessed]
    exact Nat.one_pos
  rcases (h s hs).primary hflight with hqueue | hhand
  · exact hqueue hquiet.queue
  · exact hhand hquiet.handled

end CartoLive.Theorems.BackfillGate
