import CartoLive.Web.ResumeRecovery

/-!
# Every resume is followed by one recovery

A suspend period and a forced resume each begin a cycle, a run is started for a cycle beyond
the one that the last run was started for, and a resume that finds a run in flight leaves its
cycle in the queue. A queued cycle stays ahead of the started one until the run ends, and a
cycle left in the queue at a hidden page falls behind the next one that is started.

## Main results

* `every_resume_recovers` : runs do not overlap, how many there are, and the run that follows
  an accepted resume.
-/

namespace CartoLive.Theorems.ResumeRecovery

open CartoLive.Lib CartoLive.Web CartoLive.Web.ResumeRecovery

variable {forceDedupeMs : Option ℚ} {s t u : ResumeRecovery} {event : LifecycleEvent}

/-- Whether an event asks for a resume, by force or not, and when. -/
def signal : LifecycleEvent → Option (Bool × ℚ)
  | .visibilitychange false now => some (false, now)
  | .resume now => some (true, now)
  | .pageshow persisted now => some (persisted, now)
  | .focus now => some (false, now)
  | _ => none

def hiddenAfter (s : ResumeRecovery) : LifecycleEvent → Bool
  | .visibilitychange isHidden _ => isHidden
  | _ => s.hidden

/-- Whether a resume is accepted: at a page that is shown, it ends a suspend period, or is forced
and not too close to the last one. -/
def accepts (forceDedupeMs : Option ℚ) (s : ResumeRecovery) (event : LifecycleEvent) : Bool :=
  match signal event with
  | none => false
  | some (force, now) =>
    !hiddenAfter s event && (s.suspended || force && !s.withinDedupe forceDedupeMs now)

/-- Whether a forced resume is accepted that ends no suspend period. -/
def forces (forceDedupeMs : Option ℚ) (s : ResumeRecovery) (event : LifecycleEvent) : Bool :=
  accepts forceDedupeMs s event && !s.suspended

/-- The state in which an accepted resume is carried out. -/
def resuming (s : ResumeRecovery) : ResumeRecovery :=
  { s with hidden := false, cycle := if s.suspended then s.cycle else s.cycle + 1 }

/-! ## What a step can do -/

/-- A resume is carried out or refused. -/
theorem resume_cases (hopen : s.disposed = false) (force : Bool) (now : ℚ) :
    s.resume true forceDedupeMs force now =
      if !s.hidden && (s.suspended || force && !s.withinDedupe forceDedupeMs now) then
        (resuming s).accept now
      else s := by
  generalize hdedupe : s.withinDedupe forceDedupeMs now = within
  obtain ⟨isHidden, _, isSuspended, _, _, _, _, _, _, _, _, _⟩ := s
  obtain rfl : _ = false := hopen
  unfold ResumeRecovery.resume resuming
  rw [hdedupe]
  cases isHidden <;> cases isSuspended <;> cases force <;> cases within <;> rfl

/-- What a step does: it suspends, refuses a resume, carries one out, calls `rehydrate` or ends a
run. -/
inductive Outcome (forceDedupeMs : Option ℚ) (s : ResumeRecovery) :
    LifecycleEvent → ResumeRecovery → Prop
  | suspends {event : LifecycleEvent} (isHidden : Bool)
      (hkind : accepts forceDedupeMs s event = false) :
      Outcome forceDedupeMs s event { s with hidden := isHidden }.markSuspended
  | refuses {event : LifecycleEvent} (isHidden : Bool)
      (hkind : accepts forceDedupeMs s event = false) (hshown : isHidden = true → s.hidden = true) :
      Outcome forceDedupeMs s event { s with hidden := isHidden }
  | resumes {event : LifecycleEvent} (now : ℚ) (hkind : accepts forceDedupeMs s event = true) :
      Outcome forceDedupeMs s event ((resuming s).accept now)
  | calls (hpos : 0 < s.scheduled) : Outcome forceDedupeMs s .rehydrate s.call
  | finishes (hpos : 0 < s.running) : Outcome forceDedupeMs s .finished (s.finish true)

theorem handle_of_open (hopen : s.disposed = false) (handler : ResumeRecovery → ResumeRecovery) :
    s.handle handler = handler s :=
  if_neg (by rw [hopen]; exact Bool.false_ne_true)

/-- A resume that is asked for once the document is hidden or shown. -/
theorem outcome_resume (isHidden : Bool) (hopen : s.disposed = false) {force : Bool} {now : ℚ}
    (hshown : isHidden = true → s.hidden = true)
    (haccepts : accepts forceDedupeMs s event =
      (!isHidden && (s.suspended || force && !s.withinDedupe forceDedupeMs now))) :
    Outcome forceDedupeMs s event
      ({ s with hidden := isHidden }.resume true forceDedupeMs force now) := by
  have hcases := @resume_cases forceDedupeMs { s with hidden := isHidden } hopen force now
  have hsame : (!isHidden && (s.suspended || force &&
      !({ s with hidden := isHidden } : ResumeRecovery).withinDedupe forceDedupeMs now)) =
      accepts forceDedupeMs s event := haccepts.symm
  rw [hcases, hsame]
  cases h : accepts forceDedupeMs s event with
  | false => exact .refuses isHidden h hshown
  | true => exact .resumes now h

theorem step_outcome (hopen : s.disposed = false) (hevent : event ≠ .dispose)
    (hstep : s.step true forceDedupeMs event = some t) : Outcome forceDedupeMs s event t := by
  cases event with
  | visibilitychange isHidden now =>
    obtain rfl := Option.some.inj hstep
    have hshown : ({ s with hidden := isHidden } : ResumeRecovery).disposed = false := hopen
    rw [handle_of_open hshown]
    cases isHidden with
    | true => exact .suspends true rfl
    | false => exact outcome_resume false hopen nofun rfl
  | freeze | pagehide | blur =>
    obtain rfl := Option.some.inj hstep
    rw [handle_of_open hopen]
    exact .suspends s.hidden rfl
  | resume now =>
    obtain rfl := Option.some.inj hstep
    rw [handle_of_open hopen]
    exact outcome_resume s.hidden hopen id rfl
  | pageshow persisted now =>
    obtain rfl := Option.some.inj hstep
    rw [handle_of_open hopen]
    exact outcome_resume s.hidden hopen id rfl
  | focus now =>
    obtain rfl := Option.some.inj hstep
    rw [handle_of_open hopen]
    exact outcome_resume s.hidden hopen id rfl
  | rehydrate =>
    obtain ⟨hpos, h⟩ := Option.ite_none_left_eq_some.mp hstep
    obtain rfl := Option.some.inj h
    exact .calls (Nat.pos_of_ne_zero hpos)
  | finished =>
    obtain ⟨hpos, h⟩ := Option.ite_none_left_eq_some.mp hstep
    obtain rfl := Option.some.inj h
    exact .finishes (Nat.pos_of_ne_zero hpos)
  | dispose => exact absurd rfl hevent

/-! ## Cycles -/

/-- What holds of a recovery that has not been disposed of. -/
structure Sound (s : ResumeRecovery) : Prop where
  isOpen : s.disposed = false
  underWay : s.scheduled + s.running = s.inFlight.toNat
  suspended_of_hidden : s.hidden = true → s.suspended = true
  started_le : s.startedCycle ≤ s.cycle
  queued_le : s.queuedCycle ≤ s.cycle
  started_lt : s.suspended = true → s.startedCycle < s.cycle
  queued_lt : s.suspended = true → s.queuedCycle < s.cycle
  calls_le : s.rehydrateCalls + s.scheduled ≤ s.startedCycle

theorem sound_installed (isHidden : Bool) : Sound (.installed isHidden) := by
  cases isHidden <;> constructor <;> decide

namespace Sound

theorem markSuspended (h : Sound s) (isHidden : Bool) :
    Sound { s with hidden := isHidden }.markSuspended := by
  have hstarted := h.started_le
  have hqueued := h.queued_le
  unfold ResumeRecovery.markSuspended
  split
  · rename_i hsuspended
    exact { h with suspended_of_hidden := fun _ => hsuspended }
  · exact { h with
      suspended_of_hidden := fun _ => rfl
      started_le := Nat.le_succ_of_le hstarted
      queued_le := Nat.le_succ_of_le hqueued
      started_lt := fun _ => Nat.lt_succ_of_le hstarted
      queued_lt := fun _ => Nat.lt_succ_of_le hqueued }

theorem shown (h : Sound s) {isHidden : Bool} (hshown : isHidden = true → s.hidden = true) :
    Sound { s with hidden := isHidden } :=
  { h with suspended_of_hidden := fun hhidden => h.suspended_of_hidden (hshown hhidden) }

/-- A resume is carried out for a cycle that no run has been started for. -/
theorem started_lt_resuming (h : Sound s) : s.startedCycle < (resuming s).cycle := by
  have hle := h.started_le
  have hlt := h.started_lt
  unfold resuming
  cases hsuspended : s.suspended with
  | true => exact hlt hsuspended
  | false => exact Nat.lt_succ_of_le hle

theorem queued_lt_resuming (h : Sound s) : s.queuedCycle < (resuming s).cycle := by
  have hle := h.queued_le
  have hlt := h.queued_lt
  unfold resuming
  cases hsuspended : s.suspended with
  | true => exact hlt hsuspended
  | false => exact Nat.lt_succ_of_le hle

end Sound

/-- A resume that finds no run starts one, and otherwise leaves its cycle in the queue. -/
theorem accept_eq (h : Sound s) (now : ℚ) :
    (resuming s).accept now =
      if s.inFlight then
        { resuming s with
          lastResumeAt := some now, suspended := false, queuedCycle := (resuming s).cycle }
      else
        { resuming s with
          lastResumeAt := some now
          suspended := false
          startedCycle := (resuming s).cycle
          inFlight := true
          scheduled := s.scheduled + 1 } := by
  have hlt := h.started_lt_resuming
  have hmax := Nat.max_eq_right (Nat.le_of_lt h.queued_lt_resuming)
  have hgo : ¬ ((resuming s).disposed = true ∨ (resuming s).cycle ≤ (resuming s).startedCycle) := by
    rintro (hdisposed | hle)
    · exact absurd (h.isOpen.symm.trans hdisposed) Bool.false_ne_true
    · exact Nat.not_le_of_lt hlt hle
  unfold accept start
  rw [if_neg hgo]
  show (if s.inFlight then { resuming s with
    lastResumeAt := some now, suspended := false
    queuedCycle := max s.queuedCycle (resuming s).cycle } else _) = _
  rw [hmax]
  rfl

/-- A run that ends at a page that is shown is followed by one for the queued cycle, if that is
beyond the started one. -/
theorem finish_eq (h : Sound s) :
    s.finish true =
      if s.hidden = false ∧ s.startedCycle < s.queuedCycle then
        { s with
          running := s.running - 1
          queuedCycle := 0
          startedCycle := s.queuedCycle
          inFlight := true
          scheduled := s.scheduled + 1 }
      else { s with running := s.running - 1, inFlight := false } := by
  unfold finish start
  cases hhidden : s.hidden with
  | true => simp
  | false =>
    by_cases hlt : s.startedCycle < s.queuedCycle
    · simp [h.isOpen, hlt]
    · simp [h.isOpen, hlt]

namespace Sound

theorem accept (h : Sound s) (now : ℚ) : Sound ((resuming s).accept now) := by
  have hstarted := h.started_lt_resuming
  have hqueued := h.queued_lt_resuming
  have hunderWay := h.underWay
  have hcalls := h.calls_le
  rw [accept_eq h]
  cases hflight : s.inFlight with
  | true =>
    rw [hflight] at hunderWay
    exact ⟨h.isOpen, hunderWay.trans (congrArg _ hflight.symm), nofun, Nat.le_of_lt hstarted,
      Nat.le_refl _, nofun, nofun, hcalls⟩
  | false =>
    rw [hflight] at hunderWay
    refine ⟨h.isOpen, ?_, nofun, Nat.le_refl _, Nat.le_of_lt hqueued, nofun, nofun, ?_⟩
    · show s.scheduled + 1 + s.running = 1
      have hzero : s.scheduled + s.running = 0 := hunderWay
      omega
    · show s.rehydrateCalls + (s.scheduled + 1) ≤ (resuming s).cycle
      omega

theorem call (h : Sound s) (hpos : 0 < s.scheduled) : Sound s.call := by
  have hunderWay := h.underWay
  have hcalls := h.calls_le
  refine { h with underWay := ?_, calls_le := ?_ }
  · show s.scheduled - 1 + (s.running + 1) = s.inFlight.toNat
    omega
  · show s.rehydrateCalls + 1 + (s.scheduled - 1) ≤ s.startedCycle
    omega

/-- While a run has not ended nothing else is under way. -/
theorem of_running (h : Sound s) (hpos : 0 < s.running) :
    s.inFlight = true ∧ s.scheduled = 0 ∧ s.running = 1 := by
  have hunderWay := h.underWay
  cases hflight : s.inFlight with
  | true =>
    rw [hflight, Bool.toNat_true] at hunderWay
    exact ⟨rfl, by omega, by omega⟩
  | false =>
    rw [hflight, Bool.toNat_false] at hunderWay
    omega

theorem finish (h : Sound s) (hpos : 0 < s.running) : Sound (s.finish true) := by
  obtain ⟨-, hscheduled, hrunning⟩ := h.of_running hpos
  have hcalls := h.calls_le
  rw [finish_eq h]
  split
  · rename_i hqueue
    refine { h with
      underWay := ?_
      started_le := h.queued_le
      queued_le := Nat.zero_le _
      started_lt := h.queued_lt
      queued_lt := fun hsuspended => Nat.zero_lt_of_lt (h.queued_lt hsuspended)
      calls_le := ?_ }
    · show s.scheduled + 1 + (s.running - 1) = 1
      omega
    · show s.rehydrateCalls + (s.scheduled + 1) ≤ s.queuedCycle
      omega
  · refine { h with underWay := ?_ }
    show s.scheduled + (s.running - 1) = 0
    omega

theorem outcome (h : Sound s) (hout : Outcome forceDedupeMs s event t) : Sound t := by
  cases hout with
  | suspends isHidden hkind => exact h.markSuspended isHidden
  | refuses isHidden hkind hshown => exact h.shown hshown
  | resumes now hkind => exact h.accept now
  | calls hpos => exact h.call hpos
  | finishes hpos => exact h.finish hpos

end Sound

/-! ## From a resume to the run that follows -/

/-- The cycle of a resume waits for the run in flight to end. -/
def Awaits (s : ResumeRecovery) : Prop := s.inFlight = true ∧ s.startedCycle < s.queuedCycle

theorem awaits_accept (h : Sound s) (hflight : s.inFlight = true) (now : ℚ) :
    Awaits ((resuming s).accept now) := by
  rw [accept_eq h, if_pos hflight]
  exact ⟨hflight, h.started_lt_resuming⟩

theorem Awaits.markSuspended (h : Awaits s) (isHidden : Bool) :
    Awaits { s with hidden := isHidden }.markSuspended := by
  unfold ResumeRecovery.markSuspended
  split
  · exact h
  · exact h

/-- A cycle goes on waiting until the run ends. -/
theorem Awaits.outcome (h : Awaits s) (hs : Sound s) (hevent : event ≠ .finished)
    (hout : Outcome forceDedupeMs s event t) : Awaits t := by
  cases hout with
  | suspends isHidden hkind => exact h.markSuspended isHidden
  | refuses isHidden hkind hshown => exact h
  | resumes now hkind => exact awaits_accept hs h.1 now
  | calls hpos => exact h
  | finishes hpos => exact absurd rfl hevent

/-- Without a run under way and without an accepted resume, none is started. -/
theorem outcome_of_idle (hidle : s.scheduled + s.running = 0)
    (hkind : accepts forceDedupeMs s event = false) (hout : Outcome forceDedupeMs s event t) :
    t.scheduled + t.running = 0 := by
  cases hout with
  | suspends isHidden hkind =>
    unfold ResumeRecovery.markSuspended
    split
    · exact hidle
    · exact hidle
  | refuses isHidden hkind hshown => exact hidle
  | resumes now hkind' => exact absurd (hkind.symm.trans hkind') Bool.false_ne_true
  | calls hpos => omega
  | finishes hpos => omega

/-- An accepted resume without a run under way starts one. -/
theorem outcome_of_accepts (hs : Sound s) (hkind : accepts forceDedupeMs s event = true)
    (hout : Outcome forceDedupeMs s event t) :
    t.suspended = false ∧ (s.scheduled + s.running = 0 → t.scheduled = 1) ∧
      (0 < s.scheduled + s.running → Awaits t) := by
  have hunderWay := hs.underWay
  cases hout with
  | suspends isHidden hkind' => exact absurd (hkind'.symm.trans hkind) Bool.false_ne_true
  | refuses isHidden hkind' hshown => exact absurd (hkind'.symm.trans hkind) Bool.false_ne_true
  | calls hpos => cases hkind
  | finishes hpos => cases hkind
  | resumes now hkind =>
    cases hflight : s.inFlight with
    | true =>
      rw [hflight, Bool.toNat_true] at hunderWay
      refine ⟨?_, fun hidle => by omega, fun _ => awaits_accept hs hflight now⟩
      rw [accept_eq hs, if_pos hflight]
    | false =>
      rw [hflight, Bool.toNat_false] at hunderWay
      refine ⟨?_, fun _ => ?_, fun hbusy => by omega⟩
      · rw [accept_eq hs, if_neg (by rw [hflight]; exact Bool.false_ne_true)]
      · rw [accept_eq hs, if_neg (by rw [hflight]; exact Bool.false_ne_true)]
        show s.scheduled + 1 = 1
        omega

/-- A run that ends while a cycle waits: the next one is started, or the page is hidden. -/
theorem finish_of_awaits (hs : Sound s) (h : Awaits s) (hpos : 0 < s.running) :
    (s.hidden = false → (s.finish true).scheduled = 1) ∧
      (s.hidden = true → (s.finish true).scheduled + (s.finish true).running = 0) := by
  obtain ⟨-, hscheduled, hrunning⟩ := hs.of_running hpos
  rw [finish_eq hs]
  constructor
  · intro hshown
    rw [if_pos ⟨hshown, h.2⟩]
    show s.scheduled + 1 = 1
    omega
  · intro hhidden
    rw [if_neg (by rw [hhidden]; exact fun hshown => Bool.noConfusion hshown.1)]
    show s.scheduled + (s.running - 1) = 0
    omega

/-- A cycle begins with each suspend period, and with each forced resume that ends none. -/
theorem cycle_outcome (hs : Sound s) (hout : Outcome forceDedupeMs s event t) :
    (t.cycle : Int) - t.onSuspendCalls =
      (s.cycle : Int) - s.onSuspendCalls + (forces forceDedupeMs s event).toNat := by
  cases hout with
  | suspends isHidden hkind =>
    rw [forces, hkind, Bool.false_and, Bool.toNat_false]
    unfold ResumeRecovery.markSuspended
    split
    · simp
    · dsimp only
      push_cast
      omega
  | refuses isHidden hkind hshown =>
    rw [forces, hkind, Bool.false_and, Bool.toNat_false]
    simp
  | calls hpos => simp [forces, accepts, signal, ResumeRecovery.call]
  | finishes hpos =>
    rw [finish_eq hs]
    split <;> simp [forces, accepts, signal]
  | resumes now hkind =>
    rw [accept_eq hs, forces, hkind, Bool.true_and]
    have hcycle : ((resuming s).cycle : Int) = (s.cycle : Int) + (!s.suspended).toNat := by
      unfold resuming
      cases s.suspended <;> simp
    have hcalls : (resuming s).onSuspendCalls = s.onSuspendCalls := rfl
    split
    · show ((resuming s).cycle : Int) - s.onSuspendCalls = _
      omega
    · show ((resuming s).cycle : Int) - s.onSuspendCalls = _
      omega

/-! ## Runs of a recovery -/

variable {events : List LifecycleEvent}

theorem outcome_of_mem (hs : Sound s) (hkept : .dispose ∉ events) (hmem : event ∈ events)
    (hstep : (resumeSystem true forceDedupeMs).step s event = some t) :
    Outcome forceDedupeMs s event t :=
  step_outcome hs.isOpen (fun heq => hkept (heq ▸ hmem)) hstep

theorem sound_of_run (hs : Sound s) (hkept : .dispose ∉ events)
    (hrun : (resumeSystem true forceDedupeMs).run s events = some t) : Sound t :=
  TSys.run_keeps (P := Sound)
    (fun _ _ hmem _ hu hstep => hu.outcome (outcome_of_mem hu hkept hmem hstep)) hs hrun

theorem awaits_of_run (hs : Sound s) (h : Awaits s) (hkept : .dispose ∉ events)
    (hongoing : .finished ∉ events)
    (hrun : (resumeSystem true forceDedupeMs).run s events = some t) : Awaits t := by
  have hboth := TSys.run_keeps (P := fun u => Sound u ∧ Awaits u)
    (fun u event hmem v hu hstep => by
      have hout := outcome_of_mem hu.1 hkept hmem hstep
      exact ⟨hu.1.outcome hout, hu.2.outcome hu.1 (fun heq => hongoing (heq ▸ hmem)) hout⟩)
    ⟨hs, h⟩ hrun
  exact hboth.2

theorem idle_of_run (hs : Sound s) (hidle : s.scheduled + s.running = 0)
    (hkept : .dispose ∉ events)
    (hnone : (resumeSystem true forceDedupeMs).countSteps (accepts forceDedupeMs) s events = 0)
    (hrun : (resumeSystem true forceDedupeMs).run s events = some t) :
    t.scheduled + t.running = 0 := by
  have hboth := TSys.run_keeps_of_countSteps
    (P := fun u : ResumeRecovery => Sound u ∧ u.scheduled + u.running = 0)
    (fun u event hmem v hu hkind hstep => by
      have hout := outcome_of_mem hu.1 hkept hmem hstep
      exact ⟨hu.1.outcome hout, outcome_of_idle hu.2 hkind hout⟩)
    ⟨hs, hidle⟩ hnone hrun
  exact hboth.2

/-- How many cycles have begun. -/
theorem cycle_of_run (isHidden : Bool) (hkept : .dispose ∉ events)
    (hrun : (resumeSystem true forceDedupeMs).run (.installed isHidden) events = some s) :
    s.cycle = isHidden.toNat + s.onSuspendCalls +
      (resumeSystem true forceDedupeMs).countSteps (forces forceDedupeMs) (.installed isHidden)
        events := by
  have hadds := TSys.run_adds (P := Sound)
    (f := fun u : ResumeRecovery => (u.cycle : Int) - u.onSuspendCalls)
    (p := forces forceDedupeMs)
    (fun u event hmem v hu hstep => by
      have hout := outcome_of_mem hu hkept hmem hstep
      exact ⟨hu.outcome hout, cycle_outcome hu hout⟩)
    (sound_installed isHidden) hrun
  have hinit : ((ResumeRecovery.installed isHidden).cycle : Int) = isHidden.toNat := by
    cases isHidden <;> rfl
  have hcalls : (ResumeRecovery.installed isHidden).onSuspendCalls = 0 := rfl
  rw [hinit, hcalls] at hadds
  push_cast at hadds
  omega

/-- For a recovery that is not disposed of, whatever lifecycle events, calls of `rehydrate` and
ends of runs there have been, at whatever times: at most one run is under way; there are no more
runs than suspend periods and forced resumes accepted outside of one; and an accepted resume
ends the suspend period and starts a run, where none is under way. Where one is, the next is
started as it ends, if the page is then shown, and otherwise at the next accepted resume. -/
theorem every_resume_recovers (forceDedupeMs : Option ℚ) (isHidden : Bool)
    {events : List LifecycleEvent} {s : ResumeRecovery} (hkept : .dispose ∉ events)
    (hrun : (resumeSystem true forceDedupeMs).run (.installed isHidden) events = some s) :
    s.scheduled + s.running ≤ 1 ∧
    s.rehydrateCalls + s.scheduled ≤ isHidden.toNat + s.onSuspendCalls +
      (resumeSystem true forceDedupeMs).countSteps (forces forceDedupeMs) (.installed isHidden)
        events ∧
    ∀ event t, (resumeSystem true forceDedupeMs).step s event = some t →
      accepts forceDedupeMs s event = true →
      t.suspended = false ∧
      (s.scheduled + s.running = 0 → t.scheduled = 1) ∧
      (0 < s.scheduled + s.running →
        ∀ during u v, .dispose ∉ during → .finished ∉ during →
          (resumeSystem true forceDedupeMs).run t during = some u →
          (resumeSystem true forceDedupeMs).step u .finished = some v →
          (u.hidden = false → v.scheduled = 1) ∧
          (u.hidden = true → ∀ later w next x, .dispose ∉ later →
            (resumeSystem true forceDedupeMs).countSteps (accepts forceDedupeMs) v later = 0 →
            (resumeSystem true forceDedupeMs).run v later = some w →
            (resumeSystem true forceDedupeMs).step w next = some x →
            accepts forceDedupeMs w next = true → x.scheduled = 1)) := by
  have hs := sound_of_run (sound_installed isHidden) hkept hrun
  -- an event whose resume is accepted does not dispose of the recovery
  have hout : ∀ {s event t}, Sound s → (resumeSystem true forceDedupeMs).step s event = some t →
      accepts forceDedupeMs s event = true → Outcome forceDedupeMs s event t := by
    intro s event t hs hstep hkind
    refine step_outcome hs.isOpen (fun hdispose => ?_) hstep
    subst hdispose
    cases hkind
  refine ⟨?_, ?_, fun event t hstep hkind => ?_⟩
  · rw [hs.underWay]
    exact Bool.toNat_le _
  · have hcycle := cycle_of_run isHidden hkept hrun
    have hcalls := hs.calls_le
    have hstarted := hs.started_le
    omega
  · have hstepped := hout hs hstep hkind
    obtain ⟨hsuspended, hidle, hbusy⟩ := outcome_of_accepts hs hkind hstepped
    refine ⟨hsuspended, hidle, fun hunderWay during u v hkept' hongoing hduring hend => ?_⟩
    have ht := hs.outcome hstepped
    have hu := sound_of_run ht hkept' hduring
    have hawaits := awaits_of_run ht (hbusy hunderWay) hkept' hongoing hduring
    obtain ⟨hpos, h⟩ := Option.ite_none_left_eq_some.mp hend
    obtain rfl := Option.some.inj h
    have hpos' := Nat.pos_of_ne_zero hpos
    obtain ⟨hshown, hhidden⟩ := finish_of_awaits hu hawaits hpos'
    refine ⟨hshown, fun hh later w next x hkept'' hnone hlater hnext hresumes => ?_⟩
    have hv := hu.finish hpos'
    have hw := sound_of_run hv hkept'' hlater
    exact (outcome_of_accepts hw hresumes (hout hw hnext hresumes)).2.1
      (idle_of_run hv (hhidden hh) hkept'' hnone hlater)

/-- A page is hidden and shown while a run is under way. -/
def hiddenDuringRun : List LifecycleEvent :=
  [.visibilitychange false 0, .rehydrate, .visibilitychange true 1, .visibilitychange false 2,
    .finished]

theorem every_resume_recovers_during_run :
    ∃ s, (resumeSystem true none).run (.installed true) hiddenDuringRun = some s ∧
      s.scheduled + s.running ≤ 1 ∧ s.scheduled = 1 := by
  have hkept : LifecycleEvent.dispose ∉ hiddenDuringRun := by decide
  have hrun : ((resumeSystem true none).run (.installed true) hiddenDuringRun).map scheduled =
      some 1 := by decide +kernel
  obtain ⟨s, hrun, hs⟩ := Option.map_eq_some_iff.mp hrun
  exact ⟨s, hrun, (every_resume_recovers none true hkept hrun).1, hs⟩

end CartoLive.Theorems.ResumeRecovery
