import CartoLive.Lib.TSys

/-!
# The derived queues

The two queues behind the dispatcher (`derived_ingest.go`): the derived queue and
the queue of edge projections. Each is a channel beside a list of times, with one
goroutine that enqueues and one worker; a mutex guards the list, and statistics
tell the head of the list. They differ in a fast path, a pause of the worker, and
in where the worker records the statistics (`QueueKind`).

Every step is one operation on the channel, the mutex or a counter, or one that
the mutex allows its holder; the steps of the two goroutines interleave in any
order. The system remembers the jobs handed to the worker and the answers of the
calls, in order.
-/

namespace CartoLive.App

open CartoLive.Lib

/-- Which queue. -/
inductive QueueKind
  /-- `derivedQueue`. -/
  | derived
  /-- `edgeProjectionQueue`. -/
  | edgeProjection
  deriving DecidableEq

structure QueueJob (β : Type) where
  body : β
  queuedAtMs : Nat
  deriving DecidableEq

/-- How an enqueue came to record its statistics. -/
inductive EnqueuePath
  /-- The channel had room. -/
  | fast
  /-- The send may have to wait. -/
  | slow
  /-- The context was cancelled first. -/
  | cancelled
  deriving DecidableEq

/-- Where `enqueueDerivedIngestContext` or `enqueueEdgeProjection` stands. -/
inductive EnqueuePhase (β : Type)
  | idle
  /-- The mutex is next. -/
  | lock (job : QueueJob β)
  /-- It is locked, and the test for room is next. -/
  | check (job : QueueJob β)
  /-- There is room, and the send is next. -/
  | send (job : QueueJob β)
  /-- There is none, and the mutex is given up. -/
  | full (job : QueueJob β)
  /-- The mutex of the slow path is next. -/
  | relock (job : QueueJob β)
  /-- It is locked, and the time of the job is next. -/
  | append (job : QueueJob β) (path : EnqueuePath)
  /-- The addition to `derivedAccepted` is next, then the two stores. -/
  | accept (job : QueueJob β) (path : EnqueuePath) (depth oldest : Nat)
  | storeDepth (job : QueueJob β) (path : EnqueuePath) (depth oldest : Nat)
  | storeOldest (job : QueueJob β) (path : EnqueuePath) (oldest : Nat)
  /-- The mutex is given up. -/
  | unlock (job : QueueJob β) (path : EnqueuePath)
  /-- The send or the end of the context is next. -/
  | blocked (job : QueueJob β)
  /-- The context has ended, and the mutex is next. -/
  | cancel (job : QueueJob β)
  /-- It is locked, and the time of the job goes. -/
  | erase (job : QueueJob β)
  deriving DecidableEq

/-- Where `derivedIngestLoop` or `edgeProjectionLoop` stands. -/
inductive QueueWorkerPhase (β : Type)
  | select
  /-- A job was received, and the worker waits while storage pressure is critical. -/
  | paused (job : QueueJob β)
  | running (job : QueueJob β)
  /-- The job is done, and the mutex is next. -/
  | lock (job : QueueJob β)
  /-- It is locked, and the pop of the time is next. -/
  | pop (job : QueueJob β)
  /-- The mutex is given up. -/
  | unlock (depth oldest : Nat)
  /-- The addition to `derivedProcessed` is next, then the two stores. -/
  | count (depth oldest : Nat)
  | storeDepth (depth oldest : Nat)
  | storeOldest (oldest : Nat)
  /-- The mutex is given up after the stores. -/
  | release
  /-- The worker has returned, with the job that it had received. -/
  | returned (job : Option (QueueJob β))
  deriving DecidableEq

/-- A queue with its times and its statistics. -/
structure TimedQueue (β : Type) where
  channel : List (QueueJob β)
  /-- `derivedQueueTimes` or `edgeProjectionTimes`. -/
  times : List Nat
  /-- `derivedAccepted` and `derivedProcessed`. -/
  accepted : Nat
  processed : Nat
  /-- `derivedQueueDepth` and `derivedOldestAtMs`, or those of the projections. -/
  depth : Nat
  oldestAtMs : Nat
  enqueuer : EnqueuePhase β
  worker : QueueWorkerPhase β
  cancelled : Bool
  /-- The time of the latest call. -/
  latest : Nat
  /-- What the calls returned, in order. -/
  answers : List (QueueJob β × Bool)
  /-- The jobs that the worker received, in order. -/
  handed : List (QueueJob β)
  deriving DecidableEq

section Steps

variable {β : Type}

/-! ## The mutex -/

/-- The enqueue holds the mutex. -/
def EnqueuePhase.Holds : EnqueuePhase β → Prop
  | .check _ | .send _ | .full _ | .append _ _ | .accept _ _ _ _ | .storeDepth _ _ _ _
  | .storeOldest _ _ _ | .unlock _ _ | .erase _ => True
  | _ => False

/-- The worker holds the mutex; the worker of edge projections records under it. -/
def QueueWorkerPhase.Holds (kind : QueueKind) : QueueWorkerPhase β → Prop
  | .pop _ | .unlock _ _ | .release => True
  | .count _ _ | .storeDepth _ _ | .storeOldest _ => kind = .edgeProjection
  | _ => False

instance (e : EnqueuePhase β) : Decidable e.Holds := by
  cases e <;> simp only [EnqueuePhase.Holds] <;> infer_instance

instance (kind : QueueKind) (w : QueueWorkerPhase β) : Decidable (w.Holds kind) := by
  cases w <;> simp only [QueueWorkerPhase.Holds] <;> infer_instance

/-! ## Steps -/

/-- The depth that is recorded under the mutex. -/
def recordedDepth (kind : QueueKind) (path : EnqueuePath) (channel : List (QueueJob β))
    (times : List Nat) : Nat :=
  match kind, path with
  | .edgeProjection, _ => times.length
  | .derived, .slow => channel.length + 1
  | .derived, _ => channel.length

/-- The oldest time that is recorded: the head of the times, or zero. -/
def recordedOldest (times : List Nat) : Nat := times.headD 0

/-- A call begins, at no earlier time than the last one. -/
def TimedQueue.enqueue (kind : QueueKind) (admits : β → Bool) (s : TimedQueue β)
    (job : QueueJob β) : Option (TimedQueue β) :=
  match s.enqueuer with
  | .idle =>
    if job.queuedAtMs < s.latest then none
    else if admits job.body then
      some { s with
        latest := job.queuedAtMs
        enqueuer := match kind with | .derived => .lock job | .edgeProjection => .relock job }
    else some { s with answers := s.answers ++ [(job, false)] }
  | _ => none

/-- The call goes on. -/
def TimedQueue.enqueueStep (kind : QueueKind) (capacity : Nat) (s : TimedQueue β) :
    Option (TimedQueue β) :=
  match s.enqueuer with
  | .idle => none
  | .lock job => if ¬s.worker.Holds kind then some { s with enqueuer := .check job } else none
  | .check job =>
    some { s with enqueuer := if s.channel.length < capacity then .send job else .full job }
  | .send job => some { s with channel := s.channel ++ [job], enqueuer := .append job .fast }
  | .full job => some { s with enqueuer := .relock job }
  | .relock job =>
    if ¬s.worker.Holds kind then some { s with enqueuer := .append job .slow } else none
  | .append job path =>
    let times := s.times ++ [job.queuedAtMs]
    some { s with
      times
      enqueuer := .accept job path (recordedDepth kind path s.channel times) (recordedOldest times) }
  | .accept job path depth oldest =>
    some { s with
      accepted := match kind with | .derived => s.accepted + 1 | .edgeProjection => s.accepted
      enqueuer := .storeDepth job path depth oldest }
  | .storeDepth job path depth oldest =>
    some { s with depth, enqueuer := .storeOldest job path oldest }
  | .storeOldest job path oldest => some { s with oldestAtMs := oldest, enqueuer := .unlock job path }
  | .unlock job .fast => some { s with enqueuer := .idle, answers := s.answers ++ [(job, true)] }
  | .unlock job .slow => some { s with enqueuer := .blocked job }
  | .unlock job .cancelled =>
    some { s with enqueuer := .idle, answers := s.answers ++ [(job, false)] }
  | .blocked job =>
    if s.channel.length < capacity then
      some { s with
        channel := s.channel ++ [job], enqueuer := .idle, answers := s.answers ++ [(job, true)] }
    else none
  | .cancel job => if ¬s.worker.Holds kind then some { s with enqueuer := .erase job } else none
  | .erase job =>
    let times := s.times.erase job.queuedAtMs
    some { s with
      times
      enqueuer := .storeDepth job .cancelled (recordedDepth kind .cancelled s.channel times)
        (recordedOldest times) }

/-- The worker goes on; where it is paused, storage pressure is no longer critical. -/
def TimedQueue.workStep (kind : QueueKind) (s : TimedQueue β) : Option (TimedQueue β) :=
  match s.worker with
  | .select =>
    match s.channel with
    | [] => none
    | job :: rest =>
      some { s with
        channel := rest
        handed := s.handed ++ [job]
        worker := match kind with | .derived => .paused job | .edgeProjection => .running job }
  | .paused job => some { s with worker := .running job }
  | .running job => some { s with worker := .lock job }
  | .lock job => if ¬s.enqueuer.Holds then some { s with worker := .pop job } else none
  | .pop _ =>
    let times := s.times.tail
    let depth := recordedDepth kind .fast s.channel times
    some { s with
      times
      worker :=
        match kind with
        | .derived => .unlock depth (recordedOldest times)
        | .edgeProjection => .storeDepth depth (recordedOldest times) }
  | .unlock depth oldest => some { s with worker := .count depth oldest }
  | .count depth oldest =>
    some { s with processed := s.processed + 1, worker := .storeDepth depth oldest }
  | .storeDepth depth oldest => some { s with depth, worker := .storeOldest oldest }
  | .storeOldest oldest =>
    some { s with
      oldestAtMs := oldest
      worker := match kind with | .derived => .select | .edgeProjection => .release }
  | .release => some { s with worker := .select }
  | .returned _ => none

inductive QueueAct (β : Type)
  /-- A call begins. -/
  | enqueue (job : QueueJob β)
  /-- The call takes its next step. -/
  | advance
  /-- The call sees that the context is cancelled. -/
  | giveUp
  /-- The worker takes its next step. -/
  | work
  /-- The worker sees that the context is cancelled. -/
  | stop
  | cancel
  deriving DecidableEq

def TimedQueue.step (kind : QueueKind) (admits : β → Bool) (capacity : Nat) (s : TimedQueue β) :
    QueueAct β → Option (TimedQueue β)
  | .enqueue job => s.enqueue kind admits job
  | .advance => s.enqueueStep kind capacity
  | .giveUp =>
    match s.enqueuer with
    | .blocked job => if s.cancelled then some { s with enqueuer := .cancel job } else none
    | _ => none
  | .work => s.workStep kind
  | .stop =>
    match s.worker with
    | .select => if s.cancelled then some { s with worker := .returned none } else none
    | .paused job => if s.cancelled then some { s with worker := .returned (some job) } else none
    | _ => none
  | .cancel => some { s with cancelled := true }

/-- An empty queue. -/
def TimedQueue.empty : TimedQueue β :=
  { channel := [], times := [], accepted := 0, processed := 0, depth := 0, oldestAtMs := 0
    enqueuer := .idle, worker := .select, cancelled := false, latest := 0, answers := []
    handed := [] }

/-- A queue of a kind; a job that is not admitted is refused at once. -/
def timedQueue (kind : QueueKind) (admits : β → Bool) (capacity : Nat) :
    TSys (TimedQueue β) (QueueAct β) where
  init s := s = .empty
  step := TimedQueue.step kind admits capacity

end Steps

/-- The derived queue: `enqueueDerivedIngestContext` and `derivedIngestLoop`. -/
def derivedQueue (β : Type) (capacity : Nat) : TSys (TimedQueue β) (QueueAct β) :=
  timedQueue .derived (fun _ => true) capacity

/-- The queue of projections: `enqueueEdgeProjection`, which takes edges with an
identifier only, and `edgeProjectionLoop`. -/
def edgeProjectionQueue {β : Type} (edgeID : β → Int) (capacity : Nat) :
    TSys (TimedQueue β) (QueueAct β) :=
  timedQueue .edgeProjection (fun edge => 0 < edgeID edge) capacity

end CartoLive.App
