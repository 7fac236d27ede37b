import CartoLive.Theorems.QueueTimes

/-!
# What the queues lose and what they report

The derived worker records the oldest time after it has given up the mutex. Where
no call changes the head of the list in between, and the worker does not return
with a job that it was holding back, both queues lose nothing and report the age
of the oldest job (`steady_loses_nothing`). Otherwise the derived queue may stand
with a job in the channel and report none (`stale_oldest`).
-/

namespace CartoLive.Theorems.QueueAges

open CartoLive.Lib CartoLive.App CartoLive.Theorems.QueueTimes

variable {β : Type} {kind : QueueKind} {admits : β → Bool} {capacity : Nat} {s s' : TimedQueue β}

/-! ## When the worker's record is still right -/

/-- What a call is about to record as the oldest time. -/
def EnqueuePhase.oldest : EnqueuePhase β → Option Nat
  | .accept _ _ _ oldest | .storeDepth _ _ _ oldest | .storeOldest _ _ oldest => some oldest
  | _ => none

/-- What the worker is about to record as the oldest time. -/
def QueueWorkerPhase.oldest : QueueWorkerPhase β → Option Nat
  | .unlock _ oldest | .count _ oldest | .storeDepth _ oldest | .storeOldest oldest => some oldest
  | _ => none

/-- The times as the next step of a call leaves them. -/
def timesAfter (s : TimedQueue β) : List Nat :=
  match s.enqueuer with
  | .append job _ => s.times ++ [job.queuedAtMs]
  | .erase job => s.times.erase job.queuedAtMs
  | _ => s.times

/-- No call changes the head of the times between the worker's pop and the end of
its record, and the worker does not return with a job that it was holding back. -/
def Steady (s : TimedQueue β) : QueueAct β → Prop
  | .advance => (QueueWorkerPhase.oldest s.worker).isSome →
      recordedOldest (timesAfter s) = recordedOldest s.times
  | .stop => received s.worker = []
  | _ => True

instance [DecidableEq β] (s : TimedQueue β) (a : QueueAct β) : Decidable (Steady s a) := by
  cases a <;> simp only [Steady] <;> infer_instance

/-- Whoever records has read the head of the times as it is, and where nobody does
the statistics have it. -/
structure Recorded (s : TimedQueue β) : Prop where
  call : ∀ o ∈ EnqueuePhase.oldest s.enqueuer, o = recordedOldest s.times
  worker : ∀ o ∈ QueueWorkerPhase.oldest s.worker, o = recordedOldest s.times
  stored : EnqueuePhase.oldest s.enqueuer = none → QueueWorkerPhase.oldest s.worker = none →
    s.oldestAtMs = recordedOldest s.times

theorem recorded_empty : Recorded (TimedQueue.empty : TimedQueue β) := ⟨nofun, nofun, fun _ _ => rfl⟩

/-- The worker of projections records under the mutex, so no call changes the times. -/
theorem timesAfter_of_edgeProjection (h : Inv .edgeProjection s)
    (hw : (QueueWorkerPhase.oldest s.worker).isSome) : timesAfter s = s.times := by
  have hholds : s.worker.Holds .edgeProjection := by
    cases hs : s.worker <;> rw [hs] at hw <;> first | exact rfl | trivial
  have hfree : ¬ s.enqueuer.Holds := fun he => h.exclusion ⟨he, hholds⟩
  unfold timesAfter
  split
  · rename_i he
    exact absurd (by rw [he]; trivial) hfree
  · rename_i he
    exact absurd (by rw [he]; trivial) hfree
  · rfl

theorem Recorded.enqueue (h : Recorded s) {job : QueueJob β}
    (hstep : s.enqueue kind admits job = some s') : Recorded s' := by
  obtain ⟨-, hworker, hstored⟩ := h
  unfold TimedQueue.enqueue at hstep
  split at hstep
  · rename_i hidle
    rw [hidle] at hstored
    split at hstep
    · cases hstep
    · split at hstep
      · cases hstep
        cases kind with
        | derived => exact ⟨nofun, hworker, fun _ => hstored rfl⟩
        | edgeProjection => exact ⟨nofun, hworker, fun _ => hstored rfl⟩
      · cases hstep
        exact ⟨by simp [hidle, EnqueuePhase.oldest], hworker, fun _ => hstored rfl⟩
  · cases hstep

/-- A step of a call keeps the record right where it leaves the head that the
worker is recording. -/
theorem Recorded.enqueueStep (h : Recorded s)
    (hsteady : (QueueWorkerPhase.oldest s.worker).isSome →
      recordedOldest (timesAfter s) = recordedOldest s.times)
    (hstep : s.enqueueStep kind capacity = some s') : Recorded s' := by
  obtain ⟨hcall, hworker, hstored⟩ := h
  unfold timesAfter at hsteady
  unfold TimedQueue.enqueueStep at hstep
  cases he : s.enqueuer with
  | idle => rw [he] at hstep; cases hstep
  | lock job =>
    simp only [he] at hstep hstored
    obtain ⟨-, hstep⟩ := Option.ite_none_right_eq_some.mp hstep
    cases hstep
    exact ⟨nofun, hworker, fun _ => hstored rfl⟩
  | check job =>
    simp only [he] at hstep hstored
    cases hstep
    split
    · exact ⟨nofun, hworker, fun _ => hstored rfl⟩
    · exact ⟨nofun, hworker, fun _ => hstored rfl⟩
  | send job =>
    simp only [he] at hstep hstored
    cases hstep
    exact ⟨nofun, hworker, fun _ => hstored rfl⟩
  | full job =>
    simp only [he] at hstep hstored
    cases hstep
    exact ⟨nofun, hworker, fun _ => hstored rfl⟩
  | relock job =>
    simp only [he] at hstep hstored
    obtain ⟨-, hstep⟩ := Option.ite_none_right_eq_some.mp hstep
    cases hstep
    exact ⟨nofun, hworker, fun _ => hstored rfl⟩
  | append job path =>
    simp only [he] at hstep hsteady
    cases hstep
    refine ⟨fun o ho => (Option.some.inj ho).symm, fun o ho => ?_, nofun⟩
    rw [hworker o ho, ← hsteady (Option.isSome_of_mem ho)]
  | accept job path depth oldest =>
    simp only [he] at hstep hcall
    cases hstep
    exact ⟨hcall, hworker, nofun⟩
  | storeDepth job path depth oldest =>
    simp only [he] at hstep hcall
    cases hstep
    exact ⟨hcall, hworker, nofun⟩
  | storeOldest job path oldest =>
    simp only [he] at hstep hcall
    cases hstep
    exact ⟨nofun, hworker, fun _ _ => hcall oldest rfl⟩
  | unlock job path =>
    cases path with
    | fast =>
      simp only [he] at hstep hstored
      cases hstep
      exact ⟨nofun, hworker, fun _ => hstored rfl⟩
    | slow =>
      simp only [he] at hstep hstored
      cases hstep
      exact ⟨nofun, hworker, fun _ => hstored rfl⟩
    | cancelled =>
      simp only [he] at hstep hstored
      cases hstep
      exact ⟨nofun, hworker, fun _ => hstored rfl⟩
  | blocked job =>
    simp only [he] at hstep hstored
    obtain ⟨-, hstep⟩ := Option.ite_none_right_eq_some.mp hstep
    cases hstep
    exact ⟨nofun, hworker, fun _ => hstored rfl⟩
  | cancel job =>
    simp only [he] at hstep hstored
    obtain ⟨-, hstep⟩ := Option.ite_none_right_eq_some.mp hstep
    cases hstep
    exact ⟨nofun, hworker, fun _ => hstored rfl⟩
  | erase job =>
    simp only [he] at hstep hsteady
    cases hstep
    refine ⟨fun o ho => (Option.some.inj ho).symm, fun o ho => ?_, nofun⟩
    rw [hworker o ho, ← hsteady (Option.isSome_of_mem ho)]

/-- The worker pops while no call records. -/
theorem Recorded.workStep (hinv : Inv kind s) (h : Recorded s)
    (hstep : s.workStep kind = some s') : Recorded s' := by
  obtain ⟨hcall, hworker, hstored⟩ := h
  unfold TimedQueue.workStep at hstep
  cases hw : s.worker with
  | select =>
    simp only [hw] at hstep hstored
    cases hc : s.channel with
    | nil => rw [hc] at hstep; cases hstep
    | cons job rest =>
      simp only [hc] at hstep
      cases hstep
      cases kind with
      | derived => exact ⟨hcall, nofun, fun hno _ => hstored hno rfl⟩
      | edgeProjection => exact ⟨hcall, nofun, fun hno _ => hstored hno rfl⟩
  | paused job =>
    simp only [hw] at hstep hstored
    cases hstep
    exact ⟨hcall, nofun, fun hno _ => hstored hno rfl⟩
  | running job =>
    simp only [hw] at hstep hstored
    cases hstep
    exact ⟨hcall, nofun, fun hno _ => hstored hno rfl⟩
  | lock job =>
    simp only [hw] at hstep hstored
    obtain ⟨-, hstep⟩ := Option.ite_none_right_eq_some.mp hstep
    cases hstep
    exact ⟨hcall, nofun, fun hno _ => hstored hno rfl⟩
  | pop job =>
    simp only [hw] at hstep
    cases hstep
    have hfree : ¬ s.enqueuer.Holds := fun he => hinv.exclusion ⟨he, by rw [hw]; trivial⟩
    have hnone : EnqueuePhase.oldest s.enqueuer = none := by
      cases he : s.enqueuer with
      | accept | storeDepth | storeOldest => exact absurd (by rw [he]; trivial) hfree
      | _ => rfl
    cases kind with
    | derived => exact ⟨by simp [hnone], fun o ho => (Option.some.inj ho).symm, nofun⟩
    | edgeProjection => exact ⟨by simp [hnone], fun o ho => (Option.some.inj ho).symm, nofun⟩
  | unlock depth oldest =>
    simp only [hw] at hstep hworker
    cases hstep
    exact ⟨hcall, hworker, nofun⟩
  | count depth oldest =>
    simp only [hw] at hstep hworker
    cases hstep
    exact ⟨hcall, hworker, nofun⟩
  | storeDepth depth oldest =>
    simp only [hw] at hstep hworker
    cases hstep
    exact ⟨hcall, hworker, nofun⟩
  | storeOldest oldest =>
    simp only [hw] at hstep hworker
    cases hstep
    have hhead := hworker oldest rfl
    cases kind with
    | derived => exact ⟨hcall, nofun, fun _ _ => hhead⟩
    | edgeProjection => exact ⟨hcall, nofun, fun _ _ => hhead⟩
  | release =>
    simp only [hw] at hstep hstored
    cases hstep
    exact ⟨hcall, nofun, fun hno _ => hstored hno rfl⟩
  | returned job => rw [hw] at hstep; cases hstep

theorem Recorded.step (hinv : Inv kind s) (h : Recorded s) {a : QueueAct β}
    (hsteady : kind = .derived → Steady s a) (hstep : s.step kind admits capacity a = some s') :
    Recorded s' := by
  cases a with
  | enqueue job => exact h.enqueue hstep
  | advance =>
    refine h.enqueueStep (fun hw => ?_) hstep
    cases kind with
    | derived => exact hsteady rfl hw
    | edgeProjection => rw [timesAfter_of_edgeProjection hinv hw]
  | giveUp =>
    simp only [TimedQueue.step] at hstep
    split at hstep
    · rename_i job he
      obtain ⟨-, hstep⟩ := Option.ite_none_right_eq_some.mp hstep
      cases hstep
      exact ⟨by rintro job ⟨⟩, h.worker, fun _ => h.stored (by rw [he]; rfl)⟩
    · cases hstep
  | work => exact h.workStep hinv hstep
  | stop =>
    simp only [TimedQueue.step] at hstep
    split at hstep
    · rename_i hw
      obtain ⟨-, hstep⟩ := Option.ite_none_right_eq_some.mp hstep
      cases hstep
      exact ⟨h.call, by rintro job ⟨⟩, fun hno _ => h.stored hno (by rw [hw]; rfl)⟩
    · rename_i job hw
      obtain ⟨-, hstep⟩ := Option.ite_none_right_eq_some.mp hstep
      cases hstep
      exact ⟨h.call, by rintro job ⟨⟩, fun hno _ => h.stored hno (by rw [hw]; rfl)⟩
    · cases hstep
  | cancel =>
    cases hstep
    exact ⟨h.call, h.worker, h.stored⟩

/-! ## Losing nothing -/

/-- The job in processing. -/
def processing : QueueWorkerPhase β → List (QueueJob β)
  | .paused job | .running job | .lock job => [job]
  | _ => []

/-- The job of a call that waits on the full channel. -/
def blocked : EnqueuePhase β → List (QueueJob β)
  | .blocked job => [job]
  | _ => []

/-- No step of a call is half done. -/
def EnqueuePhase.Settled : EnqueuePhase β → Prop
  | .idle | .blocked _ => True
  | _ => False

/-- No step of the worker's pop is half done. -/
def QueueWorkerPhase.Settled : QueueWorkerPhase β → Prop
  | .select | .paused _ | .running _ | .lock _ | .returned _ => True
  | _ => False

/-- No step of a call or of the worker's pop is half done. -/
def Settled (s : TimedQueue β) : Prop :=
  EnqueuePhase.Settled s.enqueuer ∧ QueueWorkerPhase.Settled s.worker

/-- The worker goes on again and again, unless it waits on the empty channel or has
returned. -/
def KeepsWorking (e : (timedQueue kind admits capacity).Execution) : Prop :=
  ∀ n, ∃ m ≥ n, ((e.state m).worker = .select ∧ (e.state m).channel = []) ∨
    (∃ job, (e.state m).worker = .returned job) ∨
    (e.state m).workStep kind = some (e.state (m + 1))

/-- A run of a queue in which no job is lost, and the times and the statistics are
those of the jobs that are not done. -/
structure LosesNothing (e : (timedQueue kind admits capacity).Execution) : Prop where
  /-- The jobs that were enqueued, and the one that a call has sent and is about to
  return true for, are handed to the worker in order, or are in the channel. -/
  order : ∀ n, taken (e.state n) ++ returning (e.state n).enqueuer =
    (e.state n).handed ++ (e.state n).channel
  /-- A job that no call has taken is not handed to the worker. -/
  refused : ∀ n job, (job, true) ∉ (e.state n).answers → job ∉ returning (e.state n).enqueuer →
    job ∉ (e.state n).handed
  /-- Every job taken is handed to the worker, where the context is never cancelled. -/
  delivered : (∀ n, (e.state n).cancelled = false) → KeepsWorking e →
    ∀ n, ∃ m ≥ n, taken (e.state n) <+: (e.state m).handed
  /-- The times are those of the job in processing, the channel and the waiting call. -/
  times : ∀ n, Settled (e.state n) → (e.state n).times =
    timesOf (processing (e.state n).worker ++ (e.state n).channel ++ blocked (e.state n).enqueuer)
  /-- The statistics have the head of the times. -/
  oldest : ∀ n, Settled (e.state n) → (e.state n).oldestAtMs = recordedOldest (e.state n).times

theorem untimed_of_settled {e : EnqueuePhase β} (h : EnqueuePhase.Settled e) : untimed e = [] := by
  cases e <;> first | rfl | exact h.elim

theorem waiting_of_settled {e : EnqueuePhase β} (h : EnqueuePhase.Settled e) :
    waiting e = blocked e := by
  cases e <;> first | rfl | exact h.elim

theorem call_oldest_of_settled {e : EnqueuePhase β} (h : EnqueuePhase.Settled e) :
    EnqueuePhase.oldest e = none := by
  cases e <;> first | rfl | exact h.elim

theorem worker_oldest_of_settled {w : QueueWorkerPhase β} (h : QueueWorkerPhase.Settled w) :
    QueueWorkerPhase.oldest w = none := by
  cases w <;> first | rfl | exact h.elim

theorem received_of_settled {w : QueueWorkerPhase β} (h : QueueWorkerPhase.Settled w)
    (hheld : ∀ job, w ≠ .returned (some job)) : received w = processing w := by
  cases w with
  | returned job =>
    cases job with
    | none => rfl
    | some job => exact absurd rfl (hheld job)
  | unlock | count | storeDepth | storeOldest | release | pop => exact h.elim
  | _ => rfl

/-- A steady step does not leave a job that the worker was holding back. -/
theorem not_held (hinv : Inv kind s) {a : QueueAct β} (hsteady : kind = .derived → Steady s a)
    (hstep : s.step kind admits capacity a = some s')
    (hheld : ∀ job, s.worker ≠ .returned (some job)) (job : QueueJob β) :
    s'.worker ≠ .returned (some job) := by
  rcases worker_step hstep with hwork | ⟨hsame, -⟩ | ⟨rfl, -, hreturned⟩
  · exact worker_of_workStep hwork _
  · exact hsame ▸ hheld job
  · -- the worker of projections does not hold a job back
    have hnone : received s.worker = [] := by
      cases kind with
      | derived => exact hsteady rfl
      | edgeProjection =>
        simp only [TimedQueue.step] at hstep
        split at hstep
        · rename_i hw; rw [hw]; rfl
        · rename_i held hw; exact absurd hw (hinv.unpaused rfl held)
        · cases hstep
    rw [hreturned, hnone]
    intro hreturns
    cases hreturns

/-! ## Delivery -/

theorem mem_taken {job : QueueJob β} : job ∈ taken s ↔ (job, true) ∈ s.answers := by
  simp [taken]

/-- How many steps the worker is from its next receive. -/
def stepsLeft : QueueWorkerPhase β → Nat
  | .select | .returned _ => 0
  | .release => 1
  | .storeOldest _ => 2
  | .storeDepth _ _ => 3
  | .count _ _ => 4
  | .unlock _ _ => 5
  | .pop _ => 6
  | .lock _ => 7
  | .running _ => 8
  | .paused _ => 9

/-- The worker comes closer to its next receive, or receives. -/
theorem workStep_progress (hstep : s.workStep kind = some s') :
    (s'.handed = s.handed ∧ stepsLeft s'.worker < stepsLeft s.worker) ∨
      (s'.handed.length = s.handed.length + 1 ∧ stepsLeft s'.worker ≤ 9) := by
  unfold TimedQueue.workStep at hstep
  cases hw : s.worker with
  | select =>
    simp only [hw] at hstep
    split at hstep
    · cases hstep
    · cases hstep
      refine .inr ⟨by simp, ?_⟩
      cases kind
      · exact Nat.le_refl 9
      · exact Nat.le_succ 8
  | lock job =>
    simp only [hw] at hstep
    obtain ⟨-, hstep⟩ := Option.ite_none_right_eq_some.mp hstep
    cases hstep
    exact .inl ⟨rfl, Nat.lt_succ_self 6⟩
  | pop job =>
    simp only [hw] at hstep
    cases hstep
    cases kind
    · exact .inl ⟨rfl, Nat.lt_succ_self 5⟩
    · exact .inl ⟨rfl, show 3 < 6 by decide⟩
  | storeOldest oldest =>
    simp only [hw] at hstep
    cases hstep
    cases kind
    · exact .inl ⟨rfl, show 0 < 2 by decide⟩
    · exact .inl ⟨rfl, Nat.lt_succ_self 1⟩
  | returned job => rw [hw] at hstep; cases hstep
  | _ => simp only [hw] at hstep; cases hstep; exact .inl ⟨rfl, Nat.lt_succ_self _⟩

/-- The worker returns only where the context was cancelled. -/
theorem cancelled_of_returned {s : TimedQueue β}
    (hs : (timedQueue kind admits capacity).Reachable s) :
    ∀ job, s.worker = .returned job → s.cancelled = true := by
  induction hs with
  | init hi =>
    cases hi
    exact fun _ hw => nomatch hw
  | @step s s' a _ _ hstep ih =>
    intro job hw
    cases hc : s.cancelled with
    | true => exact (step_grows hstep).cancelled hc
    | false =>
      rcases worker_step_live hstep hc with hwork | ⟨hsame, -⟩
      · exact absurd hw (worker_of_workStep hwork job)
      · exact absurd (ih job (hsame ▸ hw)) (by rw [hc]; exact nofun)

/-- While a job that was taken is not handed over, the channel is not empty. -/
theorem channel_ne_nil {jobs : List (QueueJob β)} (h : Inv kind s) (htaken : jobs <+: taken s)
    (hbehind : s.handed.length < jobs.length) : s.channel ≠ [] := by
  intro hempty
  have hlength := congrArg List.length h.order
  have hle := htaken.length_le
  simp only [List.length_append, hempty, List.length_nil] at hlength
  omega

/-- How many steps the worker is from receiving the first `n` jobs. -/
def behind (n : Nat) (s : TimedQueue β) : Nat := (n - s.handed.length) * 10 + stepsLeft s.worker

theorem behind_workStep {n : Nat} (hstep : s.workStep kind = some s') (hlt : s.handed.length < n) :
    behind n s' < behind n s := by
  unfold behind
  rcases workStep_progress hstep with ⟨hsame, hfall⟩ | ⟨hone, hle⟩
  · rw [hsame]
    omega
  · omega

/-- The worker receives what was taken: while it has not, its steps lower the rank
and no other step raises it. -/
theorem exists_handed (e : (timedQueue kind admits capacity).Execution)
    (hlive : ∀ n, (e.state n).cancelled = false) (hworks : KeepsWorking e) (n : Nat) :
    ∃ m ≥ n, (taken (e.state n)).length ≤ (e.state m).handed.length := by
  by_contra hnever
  have hlt : ∀ m ≥ n, (e.state m).handed.length < (taken (e.state n)).length := fun m hm =>
    Nat.lt_of_not_le fun hle => hnever ⟨m, hm, hle⟩
  obtain ⟨m, hm, hzero⟩ := e.eventually_zero (behind (taken (e.state n)).length) (n := n)
    (fun m hm => by
      rcases e.next m with hsame | ⟨a, hstep⟩
      · exact Nat.le_of_eq (by rw [hsame])
      · rcases worker_step_live hstep (hlive m) with hwork | ⟨hworker, hhanded⟩
        · exact Nat.le_of_lt (behind_workStep hwork (hlt m hm))
        · simp only [behind, hworker, hhanded]
          exact Nat.le_refl _)
    (fun m hm _ => by
      obtain ⟨k, hk, hwait | ⟨job, hreturned⟩ | hwork⟩ := hworks m
      · obtain ⟨d, rfl⟩ := Nat.exists_eq_add_of_le (Nat.le_trans hm hk)
        exact absurd hwait.2 (channel_ne_nil (inv (e.reachable _)) (grows e n d).taken (hlt _ (by omega)))
      · have hcancelled := cancelled_of_returned (e.reachable k) job hreturned
        rw [hlive k] at hcancelled
        cases hcancelled
      · exact ⟨k, hk, behind_workStep hwork (hlt k (Nat.le_trans hm hk))⟩)
  have hbehind := hlt m hm
  unfold behind at hzero
  omega

theorem delivers (e : (timedQueue kind admits capacity).Execution)
    (hlive : ∀ n, (e.state n).cancelled = false) (hworks : KeepsWorking e) (n : Nat) :
    ∃ m ≥ n, taken (e.state n) <+: (e.state m).handed := by
  obtain ⟨m, hm, hle⟩ := exists_handed e hlive hworks n
  obtain ⟨d, rfl⟩ := Nat.exists_eq_add_of_le hm
  have hall : taken (e.state n) <+: (e.state (n + d)).handed ++ (e.state (n + d)).channel :=
    (inv (e.reachable (n + d))).order ▸ (grows e n d).taken.trans (List.prefix_append _ _)
  exact ⟨n + d, hm, List.prefix_of_prefix_length_le hall (List.prefix_append _ _) hle⟩

/-! ## The result -/

/-- A run loses nothing where its steps are steady; those of projections need not be. -/
theorem losesNothing (e : (timedQueue kind admits capacity).Execution)
    (hsteady : kind = .derived → e.Meets Steady) : LosesNothing e := by
  have hinv : ∀ n, Inv kind (e.state n) := fun n => inv (e.reachable n)
  have hsteps : ∀ n, e.state (n + 1) = e.state n ∨ ∃ a, (kind = .derived → Steady (e.state n) a) ∧
      TimedQueue.step kind admits capacity (e.state n) a = some (e.state (n + 1)) := by
    intro n
    by_cases hkind : kind = .derived
    · exact (hsteady hkind n).imp_right fun ⟨a, hok, hstep⟩ => ⟨a, fun _ => hok, hstep⟩
    · exact (e.next n).imp_right fun ⟨a, hstep⟩ => ⟨a, fun h => absurd h hkind, hstep⟩
  have hrecorded : ∀ n, Recorded (e.state n) := by
    intro n
    induction n with
    | zero => rw [show e.state 0 = .empty from e.init]; exact recorded_empty
    | succ n ih =>
      rcases hsteps n with hsame | ⟨a, hok, hstep⟩
      · exact hsame ▸ ih
      · exact ih.step (hinv n) hok hstep
  have hheld : ∀ n job, (e.state n).worker ≠ .returned (some job) := by
    intro n
    induction n with
    | zero => rw [show e.state 0 = .empty from e.init]; exact nofun
    | succ n ih =>
      rcases hsteps n with hsame | ⟨a, hok, hstep⟩
      · exact hsame ▸ ih
      · exact not_held (hinv n) hok hstep ih
  refine ⟨fun n => (hinv n).order, fun n job hanswer hreturning hhanded => ?_,
    delivers e, fun n hsettled => ?_, fun n hsettled => ?_⟩
  · have hmem : job ∈ taken (e.state n) ++ returning (e.state n).enqueuer := by
      rw [(hinv n).order]
      exact List.mem_append_left _ hhanded
    rcases List.mem_append.mp hmem with htaken | hmem
    · exact hanswer (mem_taken.mp htaken)
    · exact hreturning hmem
  · have htimes := (hinv n).times
    rw [untimed_of_settled hsettled.1, waiting_of_settled hsettled.1,
      received_of_settled hsettled.2 (hheld n)] at htimes
    simpa [timesOf] using htimes
  · exact (hrecorded n).stored (call_oldest_of_settled hsettled.1) (worker_oldest_of_settled hsettled.2)

theorem steady_loses_nothing (β : Type) (capacity : Nat) :
    (∀ e : (derivedQueue β capacity).Execution, e.Meets Steady → LosesNothing e) ∧
      ∀ (edgeID : β → Int) (e : (edgeProjectionQueue edgeID capacity).Execution),
        LosesNothing e :=
  ⟨fun e hsteady => losesNothing e fun _ => hsteady,
    fun _ e => losesNothing e nofun⟩

/-- A job goes through the queue, and the next one waits behind it. -/
def steadyActs : List (QueueAct Unit) :=
  [.enqueue ⟨(), 1⟩] ++ .replicate 8 .advance ++ .replicate 4 .work ++
    [.enqueue ⟨(), 2⟩, .work, .work] ++ .replicate 3 .work ++ .replicate 8 .advance

def steadyRun : (derivedQueue Unit 4).Execution := .ofSchedule Steady rfl steadyActs

theorem steady_loses_nothing_twice : LosesNothing steadyRun :=
  (steady_loses_nothing Unit 4).1 steadyRun (TSys.Execution.ofSchedule_meets rfl steadyActs)

/-- A second job is enqueued between the worker's pop of the first one and its record. -/
def staleActs : List (QueueAct Unit) :=
  [.enqueue ⟨(), 1⟩] ++ .replicate 8 .advance ++ .replicate 6 .work ++
    [.enqueue ⟨(), 2⟩] ++ .replicate 8 .advance ++ .replicate 3 .work

/-- The worker stores that there is no oldest job, and the second one is in the channel. -/
theorem stale_oldest : ¬ ∀ e : (derivedQueue Unit 4).Execution, LosesNothing e := by
  intro h
  have holdest := (h (.ofSchedule (fun _ _ => True) rfl staleActs)).oldest 27
  have hstate : (derivedQueue Unit 4).follow (fun _ _ => True) .empty staleActs 27 =
      { channel := [⟨(), 2⟩], times := [2], accepted := 2, processed := 1, depth := 0, oldestAtMs := 0
        enqueuer := .idle, worker := .select, cancelled := false, latest := 2
        answers := [(⟨(), 1⟩, true), (⟨(), 2⟩, true)], handed := [⟨(), 1⟩] } := by decide +kernel
  change Settled ((derivedQueue Unit 4).follow (fun _ _ => True) .empty staleActs 27) →
    ((derivedQueue Unit 4).follow (fun _ _ => True) .empty staleActs 27).oldestAtMs =
      recordedOldest ((derivedQueue Unit 4).follow (fun _ _ => True) .empty staleActs 27).times
    at holdest
  rw [hstate] at holdest
  cases holdest ⟨trivial, trivial⟩

end CartoLive.Theorems.QueueAges
