import Mathlib.Data.List.Basic

/-!
# The live visual scheduler

`LiveVisualScheduler` of the map: a queue of visuals, a loop that starts up to eight of
them each frame, and a path that starts the oldest one when the queue is full. A visual that
cannot be started yet goes back to the head of the queue.

The callbacks are parameters that may answer anything at each call; the state keeps the calls
of `start` and the number of requested frames that have not run. The diagnostics are left out.
-/

namespace CartoLive.Web

inductive LiveAnimationPressure
  | normal
  | degraded
  | minimal
  | emergency
  deriving DecidableEq

inductive LiveVisualStartResult
  | started
  | retry
  | ineligible
  deriving DecidableEq

def liveVisualQueueLimit : Nat := 1024

def liveVisualMaxStartsPerFrame : Nat := 8

def liveVisualDegradedActive : Nat := 48

def liveVisualMinimalActive : Nat := 120

/-- `SchedulerOptions`, each callback by the number of its calls so far. -/
structure SchedulerOptions (T : Type) where
  start : Nat → T → LiveAnimationPressure → LiveVisualStartResult
  activeCount : Nat → Nat
  requestFrame : Nat → Nat
  now : Nat → Int
  /-- The browser's handles are not zero. -/
  handle_ne_zero : ∀ call, requestFrame call ≠ 0

/-- A call of `start` and its result. -/
structure StartCall (T : Type) where
  visual : T
  pressure : LiveAnimationPressure
  result : LiveVisualStartResult
  deriving DecidableEq

structure LiveVisualScheduler (T : Type) where
  queue : List T
  frameHandle : Nat
  recentStarts : List Int
  calls : List (StartCall T)
  /-- Requested frames that have not run yet. -/
  frames : Nat
  requests : Nat
  activeCounts : Nat
  readings : Nat
  deriving DecidableEq

namespace LiveVisualScheduler

variable {T : Type}

/-- The constructor. -/
def new : LiveVisualScheduler T :=
  { queue := [], frameHandle := 0, recentStarts := [], calls := [], frames := 0, requests := 0
    activeCounts := 0, readings := 0 }

/-! ## The methods -/

variable (options : SchedulerOptions T)

def schedule (s : LiveVisualScheduler T) : LiveVisualScheduler T :=
  if s.frameHandle ≠ 0 ∨ s.queue = [] then s
  else
    { s with
      frameHandle := options.requestFrame s.requests
      requests := s.requests + 1
      frames := s.frames + 1 }

def pressure (s : LiveVisualScheduler T) : LiveVisualScheduler T × LiveAnimationPressure :=
  let now := options.now s.readings
  let recentStarts := s.recentStarts.filter fun startedAt => now - startedAt ≤ 2100
  let active := max (options.activeCount s.activeCounts) recentStarts.length
  ({ s with recentStarts, readings := s.readings + 1, activeCounts := s.activeCounts + 1 },
    if liveVisualMinimalActive < active then .minimal
    else if liveVisualDegradedActive < active then .degraded
    else .normal)

def startVisual (s : LiveVisualScheduler T) (visual : T) (pressure : LiveAnimationPressure) :
    LiveVisualScheduler T × LiveVisualStartResult :=
  let now := options.now s.readings
  let result := options.start s.calls.length visual pressure
  let s :=
    { s with calls := s.calls ++ [{ visual, pressure, result }], readings := s.readings + 1 }
  if result ≠ .started then (s, result)
  else ({ s with recentStarts := s.recentStarts ++ [now] }, result)

/-- The `unshift` that follows a start in both paths. -/
def putBack (visual : T) (tried : LiveVisualScheduler T × LiveVisualStartResult) :
    LiveVisualScheduler T :=
  if tried.2 = .retry then { tried.1 with queue := visual :: tried.1.queue } else tried.1

/-- One round of the loop in `enqueue`. -/
def push (s : LiveVisualScheduler T) (visual : T) : LiveVisualScheduler T :=
  let s :=
    if liveVisualQueueLimit ≤ s.queue.length then
      match s.queue with
      | [] => s
      | oldest :: rest =>
        putBack oldest (({ s with queue := rest }).startVisual options oldest .emergency)
    else s
  { s with queue := s.queue ++ [visual] }

def enqueue (s : LiveVisualScheduler T) (visuals : List T) : LiveVisualScheduler T :=
  (visuals.foldl (push options) s).schedule options

/-- The loop in `drainFrame`. -/
def startUpTo : Nat → LiveVisualScheduler T → LiveVisualScheduler T
  | 0, s => s
  | starts + 1, s =>
    match s.queue with
    | [] => s
    | visual :: rest =>
      let (s, pressure) := ({ s with queue := rest }).pressure options
      let tried := s.startVisual options visual pressure
      if tried.2 = .retry then putBack visual tried
      else startUpTo starts (putBack visual tried)

def drainFrame (s : LiveVisualScheduler T) : LiveVisualScheduler T :=
  let s := { s with frameHandle := 0 }
  if s.queue = [] then s
  else (startUpTo options (min s.queue.length liveVisualMaxStartsPerFrame) s).schedule options

end LiveVisualScheduler

/-- What may happen to a scheduler: calls from outside, and a requested frame that runs. -/
inductive SchedulerCall (T : Type)
  | enqueue (visuals : List T)
  | drainFrame
  | frame

namespace LiveVisualScheduler

variable {T : Type}

/-- A frame runs `drainFrame`, once for each request. -/
def call (options : SchedulerOptions T) (s : LiveVisualScheduler T) :
    SchedulerCall T → LiveVisualScheduler T
  | .enqueue visuals => s.enqueue options visuals
  | .drainFrame => s.drainFrame options
  | .frame => if s.frames = 0 then s else ({ s with frames := s.frames - 1 }).drainFrame options

theorem call_frame (options : SchedulerOptions T) (s : LiveVisualScheduler T) :
    s.call options .frame =
      if s.frames = 0 then s
      else ({ s with frames := s.frames - 1 }).drainFrame options := rfl

def run (options : SchedulerOptions T) (calls : List (SchedulerCall T)) : LiveVisualScheduler T :=
  calls.foldl (call options) new

/-! ## What the calls of `start` settled -/

/-- The visuals that `start` has started or found ineligible, in the order of its answers. -/
def settled (s : LiveVisualScheduler T) : List T :=
  (s.calls.filter fun call => call.result ≠ .retry).map StartCall.visual

/-- The visuals that were started, in the order of the starts. -/
def started (s : LiveVisualScheduler T) : List T :=
  (s.calls.filter fun call => call.result = .started).map StartCall.visual

theorem started_sublist_settled (s : LiveVisualScheduler T) : s.started.Sublist s.settled := by
  refine List.Sublist.map _ (List.monotone_filter_right _ fun call hstarted => ?_)
  have hresult : call.result = .started := of_decide_eq_true hstarted
  rw [hresult]
  rfl

/-- The visuals of a scheduler in the order in which they came: the settled ones and the queue. -/
def passed (s : LiveVisualScheduler T) : List T := s.settled ++ s.queue

variable (options : SchedulerOptions T)

@[simp] theorem queue_startVisual (s : LiveVisualScheduler T) (visual : T)
    (pressure : LiveAnimationPressure) : (s.startVisual options visual pressure).1.queue = s.queue := by
  unfold startVisual
  dsimp only
  split <;> rfl

@[simp] theorem calls_startVisual (s : LiveVisualScheduler T) (visual : T)
    (pressure : LiveAnimationPressure) : (s.startVisual options visual pressure).1.calls =
      s.calls ++ [{ visual, pressure, result := (s.startVisual options visual pressure).2 }] := by
  unfold startVisual
  dsimp only
  split <;> rfl

@[simp] theorem frameHandle_startVisual (s : LiveVisualScheduler T) (visual : T)
    (pressure : LiveAnimationPressure) :
    (s.startVisual options visual pressure).1.frameHandle = s.frameHandle := by
  unfold startVisual
  dsimp only
  split <;> rfl

@[simp] theorem frames_startVisual (s : LiveVisualScheduler T) (visual : T)
    (pressure : LiveAnimationPressure) :
    (s.startVisual options visual pressure).1.frames = s.frames := by
  unfold startVisual
  dsimp only
  split <;> rfl

/-- Taking the oldest visual, trying it and putting it back keeps the order of all visuals. -/
theorem passed_putBack (s : LiveVisualScheduler T) (visual : T)
    (pressure : LiveAnimationPressure) :
    (putBack visual (s.startVisual options visual pressure)).passed =
      s.settled ++ visual :: s.queue := by
  unfold putBack
  split
  · rename_i hretry
    unfold passed settled
    simp [hretry]
  · rename_i hsettled
    unfold passed settled
    simp [hsettled]

@[simp] theorem frameHandle_putBack (s : LiveVisualScheduler T) (visual : T)
    (pressure : LiveAnimationPressure) :
    (putBack visual (s.startVisual options visual pressure)).frameHandle = s.frameHandle := by
  unfold putBack
  split <;> simp

@[simp] theorem frames_putBack (s : LiveVisualScheduler T) (visual : T)
    (pressure : LiveAnimationPressure) :
    (putBack visual (s.startVisual options visual pressure)).frames = s.frames := by
  unfold putBack
  split <;> simp

@[simp] theorem calls_putBack (s : LiveVisualScheduler T) (visual : T)
    (pressure : LiveAnimationPressure) :
    (putBack visual (s.startVisual options visual pressure)).calls.length = s.calls.length + 1 := by
  unfold putBack
  split <;> simp

@[simp] theorem passed_schedule (s : LiveVisualScheduler T) :
    (s.schedule options).passed = s.passed := by
  unfold schedule
  split <;> rfl

@[simp] theorem queue_schedule (s : LiveVisualScheduler T) :
    (s.schedule options).queue = s.queue := by
  unfold schedule
  split <;> rfl

@[simp] theorem calls_schedule (s : LiveVisualScheduler T) :
    (s.schedule options).calls = s.calls := by
  unfold schedule
  split <;> rfl

end LiveVisualScheduler

end CartoLive.Web
