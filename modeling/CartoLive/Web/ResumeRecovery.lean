import CartoLive.Lib.TSys
import Mathlib.Data.Rat.Defs
import Mathlib.Algebra.Order.Ring.Rat

/-!
# Recovery after a resume

`installResumeRecovery` of `resumeRecovery.ts`: the variables of the closure, whether the
document is hidden, the calls of `rehydrate` that wait in the queue of microtasks, and those
that have not ended. An event of the lifecycle is handled at the time that `now` returns.
-/

namespace CartoLive.Web

open CartoLive.Lib

structure ResumeRecovery where
  /-- `document.hidden`. -/
  hidden : Bool
  disposed : Bool
  suspended : Bool
  cycle : Nat
  startedCycle : Nat
  queuedCycle : Nat
  inFlight : Bool
  /-- `none` is minus infinity. -/
  lastResumeAt : Option ℚ
  /-- Microtasks that are going to call `rehydrate`. -/
  scheduled : Nat
  /-- Calls of `rehydrate` whose promise has not settled. -/
  running : Nat
  rehydrateCalls : Nat
  onSuspendCalls : Nat
  deriving DecidableEq

inductive LifecycleEvent
  /-- The document is hidden or shown. -/
  | visibilitychange (hidden : Bool) (now : ℚ)
  | freeze
  | resume (now : ℚ)
  | pagehide
  | pageshow (persisted : Bool) (now : ℚ)
  | blur
  | focus (now : ℚ)
  /-- A microtask calls `rehydrate`. -/
  | rehydrate
  /-- The promise of a call has settled, and `finally` runs. -/
  | finished
  | dispose
  deriving DecidableEq

namespace ResumeRecovery

/-- The state after `installResumeRecovery`. -/
def installed (hidden : Bool) : ResumeRecovery where
  hidden := hidden
  disposed := false
  suspended := hidden
  cycle := if hidden then 1 else 0
  startedCycle := 0
  queuedCycle := 0
  inFlight := false
  lastResumeAt := none
  scheduled := 0
  running := 0
  rehydrateCalls := 0
  onSuspendCalls := 0

def start (s : ResumeRecovery) (targetCycle : Nat) : ResumeRecovery :=
  if s.disposed ∨ targetCycle ≤ s.startedCycle then s
  else if s.inFlight then { s with queuedCycle := max s.queuedCycle targetCycle }
  else { s with startedCycle := targetCycle, inFlight := true, scheduled := s.scheduled + 1 }

/-- A call of `rehydrate`. -/
def call (s : ResumeRecovery) : ResumeRecovery :=
  { s with
    scheduled := s.scheduled - 1
    running := s.running + 1
    rehydrateCalls := s.rehydrateCalls + 1 }

def markSuspended (s : ResumeRecovery) : ResumeRecovery :=
  if s.suspended then s
  else
    { s with cycle := s.cycle + 1, onSuspendCalls := s.onSuspendCalls + 1, suspended := true }

/-- The handlers no longer listen once the recovery is disposed of. -/
def handle (s : ResumeRecovery) (handler : ResumeRecovery → ResumeRecovery) : ResumeRecovery :=
  if s.disposed then s else handler s

variable (shouldRehydrate : Bool) (forceDedupeMs : Option ℚ)

/-- The `finally` of a run. -/
def finish (s : ResumeRecovery) : ResumeRecovery :=
  let s := { s with running := s.running - 1, inFlight := false }
  if s.disposed ∨ s.hidden ∨ ¬ shouldRehydrate then s
  else if s.queuedCycle > s.startedCycle then { s with queuedCycle := 0 }.start s.queuedCycle
  else s

/-- `resumedAt - lastResumeAt < forceDedupeMs`. -/
def withinDedupe (s : ResumeRecovery) (resumedAt : ℚ) : Bool :=
  match s.lastResumeAt with
  | none => false
  | some last => resumedAt - last < max 0 (forceDedupeMs.getD 1000)

/-- The end of `resume`. -/
def accept (s : ResumeRecovery) (resumedAt : ℚ) : ResumeRecovery :=
  { s with lastResumeAt := some resumedAt, suspended := false }.start s.cycle

def resume (s : ResumeRecovery) (force : Bool) (now : ℚ) : ResumeRecovery :=
  if s.disposed ∨ s.hidden ∨ ¬ shouldRehydrate then s
  else if force ∧ ¬ s.suspended then
    if s.withinDedupe forceDedupeMs now then s
    else { s with cycle := s.cycle + 1 }.accept now
  else if ¬ s.suspended then s
  else s.accept now

def step (s : ResumeRecovery) : LifecycleEvent → Option ResumeRecovery
  | .visibilitychange hidden now =>
    some ({ s with hidden }.handle fun s =>
      if s.hidden then s.markSuspended else s.resume shouldRehydrate forceDedupeMs false now)
  | .freeze => some (s.handle markSuspended)
  | .resume now => some (s.handle fun s => s.resume shouldRehydrate forceDedupeMs true now)
  | .pagehide => some (s.handle markSuspended)
  | .pageshow persisted now =>
    some (s.handle fun s => s.resume shouldRehydrate forceDedupeMs persisted now)
  | .blur => some (s.handle markSuspended)
  | .focus now => some (s.handle fun s => s.resume shouldRehydrate forceDedupeMs false now)
  | .rehydrate => if s.scheduled = 0 then none else some s.call
  | .finished => if s.running = 0 then none else some (s.finish shouldRehydrate)
  | .dispose => some { s with disposed := true }

end ResumeRecovery

/-- The system of one recovery. -/
def resumeSystem (shouldRehydrate : Bool) (forceDedupeMs : Option ℚ) :
    TSys ResumeRecovery LifecycleEvent where
  init s := ∃ hidden, s = .installed hidden
  step := ResumeRecovery.step shouldRehydrate forceDedupeMs

end CartoLive.Web
