import CartoLive.App.DerivedQueues

/-!
# The queues and their times

Every job that an enqueue took is handed to the worker once, in order, and the
list of times is that of the jobs that are not done. The derived worker records
the head of the list only after it has given up the mutex, so an enqueue in
between is overwritten by what the worker had read (`stale_oldest`); and where
it returns with a job that it was holding back, the time of the job stays.
-/

namespace CartoLive.Theorems.QueueTimes

open CartoLive.Lib CartoLive.App

variable {β : Type} {kind : QueueKind} {admits : β → Bool} {capacity : Nat} {s s' : TimedQueue β}

/-! ## Where jobs and times are -/

/-- The job of a call. -/
def callJob : EnqueuePhase β → Option (QueueJob β)
  | .idle => none
  | .lock job | .check job | .send job | .full job | .relock job | .append job _
  | .accept job _ _ _ | .storeDepth job _ _ _ | .storeOldest job _ _ | .unlock job _ | .blocked job
  | .cancel job | .erase job => some job

/-- The job of a call that is in the channel, and whose call has not returned. -/
def returning : EnqueuePhase β → List (QueueJob β)
  | .append job .fast | .accept job .fast _ _ | .storeDepth job .fast _ _
  | .storeOldest job .fast _ | .unlock job .fast => [job]
  | _ => []

/-- The job of a call that is in the channel, and whose time is not in the list. -/
def untimed : EnqueuePhase β → List (QueueJob β)
  | .append job .fast => [job]
  | _ => []

/-- The job of a call that is not in the channel, and whose time is in the list. -/
def waiting : EnqueuePhase β → List (QueueJob β)
  | .accept job .slow _ _ | .storeDepth job .slow _ _ | .storeOldest job .slow _
  | .unlock job .slow | .blocked job | .cancel job | .erase job => [job]
  | _ => []

/-- The job that the worker has received, and whose time it has not popped. -/
def received : QueueWorkerPhase β → List (QueueJob β)
  | .paused job | .running job | .lock job | .pop job | .returned (some job) => [job]
  | _ => []

/-- The jobs that an enqueue has returned true for. -/
def taken (s : TimedQueue β) : List (QueueJob β) := (s.answers.filter Prod.snd).map Prod.fst

def timesOf (jobs : List (QueueJob β)) : List Nat := jobs.map QueueJob.queuedAtMs

/-! ## The invariant -/

structure Inv (kind : QueueKind) (s : TimedQueue β) : Prop where
  exclusion : ¬ (s.enqueuer.Holds ∧ s.worker.Holds kind)
  order : taken s ++ returning s.enqueuer = s.handed ++ s.channel
  times : s.times ++ timesOf (untimed s.enqueuer) =
    timesOf (received s.worker ++ s.channel ++ waiting s.enqueuer)
  sorted : (s.times ++ timesOf (untimed s.enqueuer)).Pairwise (· ≤ ·)
  latest : ∀ t ∈ s.times ++ timesOf (untimed s.enqueuer), t ≤ s.latest
  call : ∀ job ∈ callJob s.enqueuer, job.queuedAtMs = s.latest
  unpaused : kind = .edgeProjection → ∀ job, s.worker ≠ .paused job
  appends : ∀ job, s.enqueuer ≠ .append job .cancelled

theorem inv_empty : Inv kind (TimedQueue.empty : TimedQueue β) where
  exclusion := fun h => h.1
  order := rfl
  times := rfl
  sorted := .nil
  latest := by simp [TimedQueue.empty, untimed, timesOf]
  call := by simp [TimedQueue.empty, callJob]
  unpaused := by simp [TimedQueue.empty]
  appends := by simp [TimedQueue.empty]

/-- In a list in order, the last time goes where its value goes. -/
theorem erase_concat {l : List Nat} {t : Nat} (h : (l ++ [t]).Pairwise (· ≤ ·)) :
    (l ++ [t]).erase t = l := by
  induction l with
  | nil => simp
  | cons x l ih =>
    rw [List.cons_append, List.pairwise_cons] at h
    by_cases hx : x = t
    · -- every time behind it is the same
      subst hx
      rw [List.cons_append, List.erase_cons_head]
      have hall : ∀ y ∈ l, y = x := fun y hy => by
        have hle := h.1 y (List.mem_append_left _ hy)
        have hge := (List.pairwise_append.mp h.2).2.2 y hy x (List.mem_singleton_self x)
        omega
      rw [List.eq_replicate_of_mem hall, ← List.replicate_succ', List.replicate_succ]
    · rw [List.cons_append, List.erase_cons_tail (by simpa using hx), ih h.2]

theorem pairwise_concat {l : List Nat} {t : Nat} (h : l.Pairwise (· ≤ ·)) (ht : ∀ x ∈ l, x ≤ t) :
    (l ++ [t]).Pairwise (· ≤ ·) :=
  List.pairwise_append.mpr ⟨h, List.pairwise_singleton _ _, fun x hx _ hy =>
    List.mem_singleton.mp hy ▸ ht x hx⟩

theorem Inv.enqueue (h : Inv kind s) {job : QueueJob β}
    (hstep : s.enqueue kind admits job = some s') : Inv kind s' := by
  unfold TimedQueue.enqueue at hstep
  split at hstep
  · rename_i hidle
    have horder := h.order
    have htimes := h.times
    have hsorted := h.sorted
    have hlatest := h.latest
    rw [hidle] at horder htimes hsorted hlatest
    split at hstep
    · cases hstep
    · rename_i hlater
      split at hstep
      · cases hstep
        have hle : ∀ t ∈ s.times ++ timesOf (untimed (EnqueuePhase.idle : EnqueuePhase β)),
            t ≤ job.queuedAtMs := fun t ht => Nat.le_trans (hlatest t ht) (Nat.le_of_not_lt hlater)
        cases kind with
        | derived => exact ⟨fun h => h.1, horder, htimes, hsorted, hle, by simp [callJob], h.unpaused,
            nofun⟩
        | edgeProjection =>
          exact ⟨fun h => h.1, horder, htimes, hsorted, hle, by simp [callJob], h.unpaused,
            nofun⟩
      · cases hstep
        have htaken : taken { s with answers := s.answers ++ [(job, false)] } = taken s := by
          simp [taken]
        have hrest := h.call
        exact ⟨h.exclusion, by rw [htaken]; exact h.order, h.times, h.sorted, h.latest, hrest,
          h.unpaused, h.appends⟩
  · cases hstep

/-- The call holds the mutex and goes on; the worker does not hold it. -/
theorem Inv.enqueueStep (h : Inv kind s) (hstep : s.enqueueStep kind capacity = some s') :
    Inv kind s' := by
  obtain ⟨hexclusion, horder, htimes, hsorted, hlatest, hcall, hunpaused, happends⟩ := h
  unfold TimedQueue.enqueueStep at hstep
  cases he : s.enqueuer with
  | idle => rw [he] at hstep; cases hstep
  | lock job =>
    simp only [he] at hstep hexclusion horder htimes hsorted hlatest hcall
    obtain ⟨hfree, hstep⟩ := Option.ite_none_right_eq_some.mp hstep
    cases hstep
    exact ⟨fun h => hfree h.2, horder, htimes, hsorted, hlatest, hcall, hunpaused, nofun⟩
  | check job =>
    simp only [he] at hstep hexclusion horder htimes hsorted hlatest hcall
    cases hstep
    split
    · exact ⟨hexclusion, horder, htimes, hsorted, hlatest, hcall, hunpaused, nofun⟩
    · exact ⟨hexclusion, horder, htimes, hsorted, hlatest, hcall, hunpaused, nofun⟩
  | send job =>
    simp only [he] at hstep hexclusion horder htimes hsorted hlatest hcall
    cases hstep
    have hjob := hcall job rfl
    simp only [untimed, timesOf, List.map_nil, List.append_nil] at htimes hsorted hlatest
    refine ⟨hexclusion, ?_, ?_, ?_, ?_, hcall, hunpaused, nofun⟩
    · show taken s ++ [job] = s.handed ++ (s.channel ++ [job])
      rw [← List.append_assoc, ← horder]
      simp [returning]
    · show s.times ++ [job.queuedAtMs] = _
      rw [htimes]
      simp [timesOf, waiting]
    · exact pairwise_concat hsorted fun t ht => hjob ▸ hlatest t ht
    · refine List.forall_mem_append.mpr ⟨hlatest, ?_⟩
      simpa [untimed, timesOf] using Nat.le_of_eq hjob
  | full job =>
    simp only [he] at hstep horder htimes hsorted hlatest hcall
    cases hstep
    exact ⟨fun h => h.1, horder, htimes, hsorted, hlatest, hcall, hunpaused, nofun⟩
  | relock job =>
    simp only [he] at hstep horder htimes hsorted hlatest hcall
    obtain ⟨hfree, hstep⟩ := Option.ite_none_right_eq_some.mp hstep
    cases hstep
    exact ⟨fun h => hfree h.2, horder, htimes, hsorted, hlatest, hcall, hunpaused, nofun⟩
  | append job path =>
    have hpath := happends job
    simp only [he] at hstep hexclusion horder htimes hsorted hlatest hcall hpath
    cases hstep
    have hjob := hcall job rfl
    cases path with
    | fast =>
      refine ⟨hexclusion, horder, ?_, ?_, ?_, hcall, hunpaused, nofun⟩
      · show (s.times ++ [job.queuedAtMs]) ++ [] = _
        rw [List.append_nil]
        exact htimes
      · show ((s.times ++ [job.queuedAtMs]) ++ []).Pairwise (· ≤ ·)
        rw [List.append_nil]
        exact hsorted
      · show ∀ t ∈ (s.times ++ [job.queuedAtMs]) ++ [], t ≤ s.latest
        rw [List.append_nil]
        exact hlatest
    | slow =>
      simp only [untimed, timesOf, List.map_nil, List.append_nil] at htimes hsorted hlatest
      refine ⟨hexclusion, horder, ?_, ?_, ?_, hcall, hunpaused, nofun⟩
      · show (s.times ++ [job.queuedAtMs]) ++ [] = _
        rw [List.append_nil, htimes]
        simp [timesOf, waiting]
      · show ((s.times ++ [job.queuedAtMs]) ++ []).Pairwise (· ≤ ·)
        rw [List.append_nil]
        exact pairwise_concat hsorted fun t ht => hjob ▸ hlatest t ht
      · show ∀ t ∈ (s.times ++ [job.queuedAtMs]) ++ [], t ≤ s.latest
        rw [List.append_nil]
        exact List.forall_mem_append.mpr ⟨hlatest, by simpa using Nat.le_of_eq hjob⟩
    | cancelled => exact absurd rfl hpath
  | accept job path depth oldest =>
    simp only [he] at hstep hexclusion horder htimes hsorted hlatest hcall
    cases hstep
    cases path with
    | fast => exact ⟨hexclusion, horder, htimes, hsorted, hlatest, hcall, hunpaused, nofun⟩
    | slow => exact ⟨hexclusion, horder, htimes, hsorted, hlatest, hcall, hunpaused, nofun⟩
    | cancelled => exact ⟨hexclusion, horder, htimes, hsorted, hlatest, hcall, hunpaused, nofun⟩
  | storeDepth job path depth oldest =>
    simp only [he] at hstep hexclusion horder htimes hsorted hlatest hcall
    cases hstep
    cases path with
    | fast => exact ⟨hexclusion, horder, htimes, hsorted, hlatest, hcall, hunpaused, nofun⟩
    | slow => exact ⟨hexclusion, horder, htimes, hsorted, hlatest, hcall, hunpaused, nofun⟩
    | cancelled => exact ⟨hexclusion, horder, htimes, hsorted, hlatest, hcall, hunpaused, nofun⟩
  | storeOldest job path oldest =>
    simp only [he] at hstep hexclusion horder htimes hsorted hlatest hcall
    cases hstep
    cases path with
    | fast => exact ⟨hexclusion, horder, htimes, hsorted, hlatest, hcall, hunpaused, nofun⟩
    | slow => exact ⟨hexclusion, horder, htimes, hsorted, hlatest, hcall, hunpaused, nofun⟩
    | cancelled => exact ⟨hexclusion, horder, htimes, hsorted, hlatest, hcall, hunpaused, nofun⟩
  | unlock job path =>
    cases path with
    | fast =>
      simp only [he] at hstep horder htimes hsorted hlatest
      cases hstep
      refine ⟨fun h => h.1, ?_, htimes, hsorted, hlatest, nofun, hunpaused, nofun⟩
      rw [← horder]
      simp [taken, returning]
    | slow =>
      simp only [he] at hstep horder htimes hsorted hlatest hcall
      cases hstep
      exact ⟨fun h => h.1, horder, htimes, hsorted, hlatest, hcall, hunpaused, nofun⟩
    | cancelled =>
      simp only [he] at hstep horder htimes hsorted hlatest
      cases hstep
      refine ⟨fun h => h.1, ?_, htimes, hsorted, hlatest, nofun, hunpaused, nofun⟩
      rw [← horder]
      simp [taken, returning]
  | blocked job =>
    simp only [he] at hstep horder htimes hsorted hlatest
    obtain ⟨-, hstep⟩ := Option.ite_none_right_eq_some.mp hstep
    cases hstep
    refine ⟨fun h => h.1, ?_, ?_, hsorted, hlatest, nofun, hunpaused, nofun⟩
    · rw [← List.append_assoc, ← horder]
      simp [taken, returning]
    · rw [show timesOf (untimed (EnqueuePhase.idle : EnqueuePhase β)) =
        timesOf (untimed (.blocked job)) from rfl, htimes]
      simp [timesOf, waiting]
  | cancel job =>
    simp only [he] at hstep horder htimes hsorted hlatest hcall
    obtain ⟨hfree, hstep⟩ := Option.ite_none_right_eq_some.mp hstep
    cases hstep
    exact ⟨fun h => hfree h.2, horder, htimes, hsorted, hlatest, hcall, hunpaused, nofun⟩
  | erase job =>
    simp only [he] at hstep hexclusion horder htimes hsorted hlatest hcall
    cases hstep
    simp only [untimed, timesOf, List.map_nil, List.append_nil] at htimes hsorted hlatest
    -- the time of the call is the last one
    have hlast : s.times =
        timesOf (received s.worker ++ s.channel) ++ [job.queuedAtMs] := by
      rw [htimes]
      simp [timesOf, waiting]
    have herase : s.times.erase job.queuedAtMs = timesOf (received s.worker ++ s.channel) := by
      rw [hlast]
      exact erase_concat (hlast ▸ hsorted)
    refine ⟨hexclusion, horder, ?_, ?_, ?_, hcall, hunpaused, nofun⟩
    · show s.times.erase job.queuedAtMs ++ [] = _
      rw [List.append_nil, herase]
      simp [waiting]
    · show (s.times.erase job.queuedAtMs ++ []).Pairwise (· ≤ ·)
      rw [List.append_nil]
      exact hsorted.sublist List.erase_sublist
    · show ∀ t ∈ s.times.erase job.queuedAtMs ++ [], t ≤ s.latest
      rw [List.append_nil]
      exact fun t ht => hlatest t (List.mem_of_mem_erase ht)

/-- The worker goes on; where it holds the mutex, the call does not. -/
theorem Inv.workStep (h : Inv kind s) (hstep : s.workStep kind = some s') : Inv kind s' := by
  obtain ⟨hexclusion, horder, htimes, hsorted, hlatest, hcall, hunpaused, happends⟩ := h
  unfold TimedQueue.workStep at hstep
  cases hw : s.worker with
  | select =>
    simp only [hw] at hstep htimes
    cases hc : s.channel with
    | nil => rw [hc] at hstep; cases hstep
    | cons job rest =>
      simp only [hc] at hstep horder htimes
      cases hstep
      have horder' : taken s ++ returning s.enqueuer = (s.handed ++ [job]) ++ rest := by
        rw [horder]
        simp
      cases kind with
      | derived =>
        exact ⟨fun h => h.2, horder', htimes, hsorted, hlatest, hcall, nofun, happends⟩
      | edgeProjection =>
        exact ⟨fun h => h.2, horder', htimes, hsorted, hlatest, hcall, nofun, happends⟩
  | paused job =>
    simp only [hw] at hstep htimes
    cases hstep
    exact ⟨fun h => h.2, horder, htimes, hsorted, hlatest, hcall, nofun, happends⟩
  | running job =>
    simp only [hw] at hstep htimes
    cases hstep
    exact ⟨fun h => h.2, horder, htimes, hsorted, hlatest, hcall, nofun, happends⟩
  | lock job =>
    simp only [hw] at hstep htimes
    obtain ⟨hfree, hstep⟩ := Option.ite_none_right_eq_some.mp hstep
    cases hstep
    exact ⟨fun h => hfree h.1, horder, htimes, hsorted, hlatest, hcall, nofun, happends⟩
  | pop job =>
    simp only [hw] at hstep htimes hexclusion
    cases hstep
    -- the call does not hold the mutex, so the time of its job is not missing
    have hfree : ¬ s.enqueuer.Holds := fun h => hexclusion ⟨h, trivial⟩
    have huntimed : untimed s.enqueuer = [] := by
      cases he : s.enqueuer with
      | append job path => exact absurd (by rw [he]; trivial) hfree
      | _ => rfl
    rw [huntimed] at htimes hsorted hlatest
    simp only [timesOf, List.map_nil, List.append_nil] at htimes hsorted hlatest
    have hpopped : s.times.tail ++ timesOf (untimed s.enqueuer) =
        timesOf (s.channel ++ waiting s.enqueuer) := by
      rw [huntimed, htimes]
      simp [timesOf, received]
    have hsorted' : (s.times.tail ++ timesOf (untimed s.enqueuer)).Pairwise (· ≤ ·) := by
      rw [huntimed]
      simpa [timesOf] using hsorted.sublist (List.tail_sublist _)
    have hlatest' : ∀ t ∈ s.times.tail ++ timesOf (untimed s.enqueuer), t ≤ s.latest := by
      rw [huntimed]
      simpa [timesOf] using fun t ht => hlatest t (List.mem_of_mem_tail ht)
    cases kind with
    | derived =>
      exact ⟨fun h => hfree h.1, horder, hpopped, hsorted', hlatest', hcall, nofun, happends⟩
    | edgeProjection =>
      exact ⟨fun h => hfree h.1, horder, hpopped, hsorted', hlatest', hcall, nofun, happends⟩
  | unlock depth oldest =>
    simp only [hw] at hstep htimes hexclusion
    cases hstep
    exact ⟨fun h => hexclusion ⟨h.1, trivial⟩, horder, htimes, hsorted, hlatest, hcall, nofun,
      happends⟩
  | count depth oldest =>
    simp only [hw] at hstep htimes hexclusion
    cases hstep
    exact ⟨hexclusion, horder, htimes, hsorted, hlatest, hcall, nofun, happends⟩
  | storeDepth depth oldest =>
    simp only [hw] at hstep htimes hexclusion
    cases hstep
    exact ⟨hexclusion, horder, htimes, hsorted, hlatest, hcall, nofun, happends⟩
  | storeOldest oldest =>
    simp only [hw] at hstep htimes hexclusion
    cases hstep
    cases kind with
    | derived => exact ⟨fun h => h.2, horder, htimes, hsorted, hlatest, hcall, nofun, happends⟩
    | edgeProjection =>
      exact ⟨fun h => hexclusion ⟨h.1, rfl⟩, horder, htimes, hsorted, hlatest, hcall, nofun,
        happends⟩
  | release =>
    simp only [hw] at hstep htimes
    cases hstep
    exact ⟨fun h => h.2, horder, htimes, hsorted, hlatest, hcall, nofun, happends⟩
  | returned job => rw [hw] at hstep; cases hstep

theorem Inv.giveUp (h : Inv kind s) {job : QueueJob β} (he : s.enqueuer = .blocked job) :
    Inv kind { s with enqueuer := .cancel job } := by
  obtain ⟨-, horder, htimes, hsorted, hlatest, hcall, hunpaused, -⟩ := h
  rw [he] at horder htimes hsorted hlatest hcall
  exact ⟨fun h => h.1, horder, htimes, hsorted, hlatest, hcall, hunpaused, nofun⟩

/-- The worker returns, and a job that it was holding back stays received. -/
theorem Inv.stop (h : Inv kind s) {job : Option (QueueJob β)}
    (hreceived : received s.worker = job.toList) :
    Inv kind { s with worker := .returned job } := by
  obtain ⟨-, horder, htimes, hsorted, hlatest, hcall, -, happends⟩ := h
  rw [hreceived] at htimes
  refine ⟨fun h => h.2, horder, ?_, hsorted, hlatest, hcall, nofun, happends⟩
  cases job <;> exact htimes

theorem Inv.step (h : Inv kind s) {a : QueueAct β}
    (hstep : s.step kind admits capacity a = some s') : Inv kind s' := by
  cases a with
  | enqueue job => exact h.enqueue hstep
  | advance => exact h.enqueueStep hstep
  | giveUp =>
    simp only [TimedQueue.step] at hstep
    split at hstep
    · rename_i job he
      obtain ⟨-, hstep⟩ := Option.ite_none_right_eq_some.mp hstep
      cases hstep
      exact h.giveUp he
    · cases hstep
  | work => exact h.workStep hstep
  | stop =>
    simp only [TimedQueue.step] at hstep
    split at hstep
    · rename_i hw
      obtain ⟨-, hstep⟩ := Option.ite_none_right_eq_some.mp hstep
      cases hstep
      exact h.stop (by rw [hw]; rfl)
    · rename_i job hw
      obtain ⟨-, hstep⟩ := Option.ite_none_right_eq_some.mp hstep
      cases hstep
      exact h.stop (by rw [hw]; rfl)
    · cases hstep
  | cancel =>
    cases hstep
    exact ⟨h.exclusion, h.order, h.times, h.sorted, h.latest, h.call, h.unpaused, h.appends⟩

theorem inv {s : TimedQueue β} (hs : (timedQueue kind admits capacity).Reachable s) :
    Inv kind s :=
  TSys.InductiveOn.invariant ⟨fun _ hi => hi ▸ inv_empty, fun _ _ _ h _ hstep => h.step hstep⟩ hs

/-! ## What moves the worker -/

/-- A step of the worker does not return. -/
theorem worker_of_workStep (hstep : s.workStep kind = some s') (job : Option (QueueJob β)) :
    s'.worker ≠ .returned job := by
  unfold TimedQueue.workStep at hstep
  split at hstep
  case h_1 =>
    split at hstep
    · cases hstep
    · cases hstep; cases kind <;> exact nofun
  case h_4 =>
    obtain ⟨-, hstep⟩ := Option.ite_none_right_eq_some.mp hstep
    cases hstep
    exact nofun
  case h_5 | h_9 => cases hstep; cases kind <;> exact nofun
  all_goals cases hstep; try exact nofun

/-- Only its own steps move the worker, and the end of the context, which it sees
while it waits for a job or holds one back. -/
theorem worker_step {a : QueueAct β} (hstep : s.step kind admits capacity a = some s') :
    s.workStep kind = some s' ∨ (s'.worker = s.worker ∧ s'.handed = s.handed) ∨
      (a = .stop ∧ s.cancelled = true ∧ s'.worker = .returned (received s.worker).head?) := by
  cases a with
  | enqueue job =>
    simp only [TimedQueue.step, TimedQueue.enqueue] at hstep
    split at hstep
    · split at hstep
      · cases hstep
      · split at hstep <;> cases hstep <;> exact .inr (.inl ⟨rfl, rfl⟩)
    · cases hstep
  | advance =>
    simp only [TimedQueue.step, TimedQueue.enqueueStep] at hstep
    split at hstep
    case h_2 | h_6 | h_14 | h_15 =>
      obtain ⟨-, hstep⟩ := Option.ite_none_right_eq_some.mp hstep
      cases hstep
      exact .inr (.inl ⟨rfl, rfl⟩)
    all_goals cases hstep; try exact .inr (.inl ⟨rfl, rfl⟩)
  | giveUp =>
    simp only [TimedQueue.step] at hstep
    split at hstep
    · obtain ⟨-, hstep⟩ := Option.ite_none_right_eq_some.mp hstep
      cases hstep; exact .inr (.inl ⟨rfl, rfl⟩)
    · cases hstep
  | work => exact .inl hstep
  | stop =>
    simp only [TimedQueue.step] at hstep
    split at hstep
    · rename_i hw
      obtain ⟨hcancelled, hstep⟩ := Option.ite_none_right_eq_some.mp hstep
      cases hstep
      exact .inr (.inr ⟨rfl, hcancelled, by rw [hw]; rfl⟩)
    · rename_i job hw
      obtain ⟨hcancelled, hstep⟩ := Option.ite_none_right_eq_some.mp hstep
      cases hstep
      exact .inr (.inr ⟨rfl, hcancelled, by rw [hw]; rfl⟩)
    · cases hstep
  | cancel => cases hstep; exact .inr (.inl ⟨rfl, rfl⟩)

theorem worker_step_live {a : QueueAct β} (hstep : s.step kind admits capacity a = some s')
    (hlive : s.cancelled = false) :
    s.workStep kind = some s' ∨ (s'.worker = s.worker ∧ s'.handed = s.handed) := by
  rcases worker_step hstep with hwork | hsame | ⟨-, hcancelled, -⟩
  · exact .inl hwork
  · exact .inr hsame
  · rw [hlive] at hcancelled
    cases hcancelled

/-! ## What grows -/

/-- The answers and the jobs handed over stay, and grow at the end; so does the
cancellation. -/
structure Grows (s s' : TimedQueue β) : Prop where
  answers : s.answers <+: s'.answers
  handed : s.handed <+: s'.handed
  cancelled : s.cancelled = true → s'.cancelled = true

theorem step_grows {a : QueueAct β} (hstep : s.step kind admits capacity a = some s') :
    Grows s s' := by
  have hsame : ∀ t : TimedQueue β, t.answers = s.answers → t.handed = s.handed →
      t.cancelled = s.cancelled → Grows s t := fun t ha hh hc =>
    ⟨ha ▸ List.prefix_rfl, hh ▸ List.prefix_rfl, fun h => hc ▸ h⟩
  have hanswer : ∀ (t : TimedQueue β) l, t.answers = s.answers ++ l → t.handed = s.handed →
      t.cancelled = s.cancelled → Grows s t := fun t l ha hh hc =>
    ⟨ha ▸ List.prefix_append _ _, hh ▸ List.prefix_rfl, fun h => hc ▸ h⟩
  cases a with
  | enqueue job =>
    simp only [TimedQueue.step, TimedQueue.enqueue] at hstep
    split at hstep
    · split at hstep
      · cases hstep
      · split at hstep
        · cases hstep; exact hsame _ rfl rfl rfl
        · cases hstep; exact hanswer _ _ rfl rfl rfl
    · cases hstep
  | advance =>
    simp only [TimedQueue.step, TimedQueue.enqueueStep] at hstep
    split at hstep
    case h_11 | h_13 => cases hstep; exact hanswer _ _ rfl rfl rfl
    case h_14 =>
      obtain ⟨-, hstep⟩ := Option.ite_none_right_eq_some.mp hstep
      cases hstep
      exact hanswer _ _ rfl rfl rfl
    case h_2 | h_6 | h_15 =>
      obtain ⟨-, hstep⟩ := Option.ite_none_right_eq_some.mp hstep
      cases hstep
      exact hsame _ rfl rfl rfl
    all_goals cases hstep; try exact hsame _ rfl rfl rfl
  | giveUp =>
    simp only [TimedQueue.step] at hstep
    split at hstep
    · obtain ⟨-, hstep⟩ := Option.ite_none_right_eq_some.mp hstep
      cases hstep; exact hsame _ rfl rfl rfl
    · cases hstep
  | work =>
    simp only [TimedQueue.step, TimedQueue.workStep] at hstep
    split at hstep
    case h_1 =>
      split at hstep
      · cases hstep
      · cases hstep; exact ⟨List.prefix_rfl, List.prefix_append _ _, id⟩
    case h_4 =>
      obtain ⟨-, hstep⟩ := Option.ite_none_right_eq_some.mp hstep
      cases hstep
      exact hsame _ rfl rfl rfl
    all_goals cases hstep; try exact hsame _ rfl rfl rfl
  | stop =>
    simp only [TimedQueue.step] at hstep
    split at hstep
    · obtain ⟨-, hstep⟩ := Option.ite_none_right_eq_some.mp hstep
      cases hstep; exact hsame _ rfl rfl rfl
    · obtain ⟨-, hstep⟩ := Option.ite_none_right_eq_some.mp hstep
      cases hstep; exact hsame _ rfl rfl rfl
    · cases hstep
  | cancel => cases hstep; exact ⟨List.prefix_rfl, List.prefix_rfl, fun _ => rfl⟩

theorem Grows.taken (h : Grows s s') : taken s <+: taken s' :=
  (h.answers.filter _).map _

theorem Grows.refl (s : TimedQueue β) : Grows s s := ⟨List.prefix_rfl, List.prefix_rfl, id⟩

theorem Grows.trans {s'' : TimedQueue β} (h : Grows s s') (h' : Grows s' s'') : Grows s s'' :=
  ⟨h.answers.trans h'.answers, h.handed.trans h'.handed, fun hc => h'.cancelled (h.cancelled hc)⟩

theorem grows (e : (timedQueue kind admits capacity).Execution) (n k : Nat) :
    Grows (e.state n) (e.state (n + k)) := by
  induction k with
  | zero => exact .refl _
  | succ k ih =>
    rcases e.next (n + k) with hsame | ⟨a, hstep⟩
    · exact hsame ▸ ih
    · exact ih.trans (step_grows hstep)

end CartoLive.Theorems.QueueTimes
