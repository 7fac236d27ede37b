import CartoLive.Lib.Holding
import CartoLive.Lib.TSys

/-!
# The intake of messages

The bounded queue of the MQTT client (`client.go`): calls of `SubmitNormalized`,
any number of them at once, the worker `dispatch` with a handler that may panic,
and the statistics of `Status`. Every step is one atomic addition or store, one
operation on the channel, or what `queueAgeMu` allows its holder to do; the steps
of all interleave in any order.

Beside what the client holds, the system remembers the messages in the order in
which they went into the channel and in which they were handed to the handler.
-/

namespace CartoLive.Mqtt

open CartoLive.Lib

/-- What `SubmitNormalized` reads of a message, and fills in. -/
structure NormalizedMessage where
  ingestID : String
  receivedAtMs : Int
  heardAtMs : Int
  deriving DecidableEq

structure QueuedMessage where
  message : NormalizedMessage
  enqueuedAt : Int
  deriving DecidableEq

inductive HandleOutcome
  | processed
  | permanentReject
  | failed
  deriving DecidableEq

/-- A message with an ingest identifier and a time of receipt. -/
def fillIn (m : NormalizedMessage) (uuid : String) (now : Int) : NormalizedMessage :=
  { m with
    ingestID := if m.ingestID = "" then uuid else m.ingestID
    receivedAtMs := if m.receivedAtMs ≤ 0 then now else m.receivedAtMs }

/-- Where a call of `SubmitNormalized` stands. -/
inductive SubmitPhase
  /-- The test of `shutdown` is next. -/
  | start
  /-- The addition to `total` is next. -/
  | count
  /-- The store of `lastMessageAt` is next. -/
  | touch
  /-- The time of enqueueing is next. -/
  | stamp
  /-- `queueAgeMu` is next. -/
  | lock (now : Int)
  /-- It is locked, and the send is next. -/
  | send (now : Int)
  /-- The message is in the channel, and its time is next. -/
  | append (now : Int)
  /-- The addition to `accepted` is next. -/
  | accept
  /-- The lock is given up; `ok` tells whether the channel had room. -/
  | unlock (ok : Bool)
  /-- The addition to `dropped` is next. -/
  | drop
  | returned (ok : Bool)
  deriving DecidableEq

structure Submit where
  message : NormalizedMessage
  phase : SubmitPhase
  deriving DecidableEq

/-- Where `dispatch` stands. -/
inductive DispatchPhase
  /-- At the top of the loop. -/
  | select
  /-- A message was received, and `queueAgeMu` is next. -/
  | received (m : QueuedMessage)
  /-- It is locked, and the pop of the time is next. -/
  | pop (m : QueuedMessage)
  /-- The handler runs. -/
  | handling (m : QueuedMessage)
  /-- The handler has ended. -/
  | ended (outcome : HandleOutcome)
  /-- `permanentRejected` has been added to, and `processed` is next. -/
  | rejected
  | returned
  deriving DecidableEq

/-- The state of the client. -/
structure Intake where
  shutdown : Bool
  cancelled : Bool
  total : Nat
  accepted : Nat
  processed : Nat
  permanentRejected : Nat
  failed : Nat
  dropped : Nat
  lastMessageAt : Int
  queue : List QueuedMessage
  queueTimes : List Int
  calls : List Submit
  worker : DispatchPhase
  /-- The messages that went into the channel, in order. -/
  sent : List NormalizedMessage
  /-- The messages that were handed to the handler, in order. -/
  handed : List NormalizedMessage
  deriving DecidableEq

/-! ## The lock -/

/-- How a call holds `queueAgeMu`. -/
def SubmitPhase.queueAgeMu : SubmitPhase → Hold
  | .send _ | .append _ | .accept | .unlock _ => .alone
  | _ => .free

/-- How the worker holds it. -/
def DispatchPhase.queueAgeMu : DispatchPhase → Hold
  | .pop _ => .alone
  | _ => .free

/-- How the worker and the calls hold it. -/
def Intake.holds (s : Intake) : List Hold :=
  s.worker.queueAgeMu :: s.calls.map fun call => call.phase.queueAgeMu

/-- Nobody holds `queueAgeMu`. -/
def Intake.AgeUnlocked (s : Intake) : Prop := Unheld id s.holds

instance (s : Intake) : Decidable s.AgeUnlocked := inferInstanceAs (Decidable (Unheld id s.holds))

/-! ## Steps -/

inductive IntakeAct
  /-- A call of `SubmitNormalized` begins; `uuid` and `now` fill the message in. -/
  | submit (message : NormalizedMessage) (uuid : String) (now : Int)
  /-- Call `i` takes its next step; `now` is the time. -/
  | advance (i : Nat) (now : Int)
  /-- The worker takes its next step; the handler ends with `outcome`, or panics. -/
  | work (outcome : Option HandleOutcome)
  | cancel
  /-- `Start` stores `shutdown` once the context is cancelled. -/
  | shutDown
  /-- The worker sees that the context is cancelled. -/
  | stop
  deriving DecidableEq

def Intake.setCall (s : Intake) (i : Nat) (call : Submit) (phase : SubmitPhase) : Intake :=
  { s with calls := s.calls.set i { call with phase } }

/-- `SubmitNormalized`, from where it stands. -/
def Intake.submitStep (queueSize : Nat) (s : Intake) (i : Nat) (call : Submit) (now : Int) :
    Option Intake :=
  match call.phase with
  | .start => some (s.setCall i call (if s.shutdown then .returned false else .count))
  | .count => some ({ s with total := s.total + 1 }.setCall i call .touch)
  | .touch => some ({ s with lastMessageAt := call.message.heardAtMs }.setCall i call .stamp)
  | .stamp => some (s.setCall i call (.lock now))
  | .lock now => if s.AgeUnlocked then some (s.setCall i call (.send now)) else none
  | .send now =>
    if s.queue.length < queueSize then
      some ({ s with
        queue := s.queue ++ [QueuedMessage.mk call.message now]
        sent := s.sent ++ [call.message] }.setCall i call (.append now))
    else some (s.setCall i call (.unlock false))
  | .append now => some ({ s with queueTimes := s.queueTimes ++ [now] }.setCall i call .accept)
  | .accept => some ({ s with accepted := s.accepted + 1 }.setCall i call (.unlock true))
  | .unlock ok => some (s.setCall i call (if ok then .returned true else .drop))
  | .drop => some ({ s with dropped := s.dropped + 1 }.setCall i call (.returned false))
  | .returned _ => none

/-- `dispatch`, from where it stands. -/
def Intake.workStep (s : Intake) (outcome : Option HandleOutcome) : Option Intake :=
  match s.worker with
  | .select =>
    match s.queue with
    | [] => none
    | m :: rest => some { s with queue := rest, worker := .received m }
  | .received m => if s.AgeUnlocked then some { s with worker := .pop m } else none
  | .pop m =>
    some { s with
      queueTimes := s.queueTimes.tail
      worker := .handling m
      handed := s.handed ++ [m.message] }
  -- a panic is an outcome too
  | .handling _ => some { s with worker := .ended (outcome.getD .failed) }
  | .ended .processed => some { s with processed := s.processed + 1, worker := .select }
  | .ended .permanentReject =>
    some { s with permanentRejected := s.permanentRejected + 1, worker := .rejected }
  | .ended .failed => some { s with failed := s.failed + 1, worker := .select }
  | .rejected => some { s with processed := s.processed + 1, worker := .select }
  | .returned => none

def Intake.step (queueSize : Nat) (s : Intake) : IntakeAct → Option Intake
  | .submit message uuid now =>
    some { s with calls := s.calls ++ [Submit.mk (fillIn message uuid now) .start] }
  | .advance i now => s.calls[i]?.bind fun call => s.submitStep queueSize i call now
  | .work outcome => s.workStep outcome
  | .cancel => some { s with cancelled := true }
  | .shutDown => if s.cancelled then some { s with shutdown := true } else none
  | .stop =>
    if s.cancelled ∧ s.worker = .select then some { s with worker := .returned } else none

/-- A client that has been started. -/
def startedIntake : Intake :=
  { shutdown := false, cancelled := false, total := 0, accepted := 0, processed := 0
    permanentRejected := 0, failed := 0, dropped := 0, lastMessageAt := 0, queue := []
    queueTimes := [], calls := [], worker := .select, sent := [], handed := [] }

/-- The client with a queue of `queueSize`. -/
def intake (queueSize : Nat) : TSys Intake IntakeAct where
  init s := s = startedIntake
  step := Intake.step queueSize

/-! ## Status -/

/-- The part of `Status` that is about messages. -/
structure Status where
  totalMessages : Nat
  acceptedMessages : Nat
  processedMessages : Nat
  permanentRejected : Nat
  failedMessages : Nat
  droppedMessages : Nat
  lastMessageAt : Int
  lastMessageAgeMs : Int
  queueDepth : Nat
  queueCapacity : Nat
  oldestQueueItemAgeMs : Int
  deriving DecidableEq

/-- `queueOldestLocked`. -/
def Intake.queueOldestLocked (s : Intake) : Int := s.queueTimes.headD 0

/-- The age of a time at `now`; there is none before the epoch. -/
def ageMs (now oldestAt : Int) : Int := if 0 < oldestAt then max (now - oldestAt) 0 else 0

/-- `Status`, read at one moment. -/
def Intake.status (queueSize : Nat) (s : Intake) (now : Int) : Status :=
  { totalMessages := s.total
    acceptedMessages := s.accepted
    processedMessages := s.processed
    permanentRejected := s.permanentRejected
    failedMessages := s.failed
    droppedMessages := s.dropped
    lastMessageAt := s.lastMessageAt
    lastMessageAgeMs := if 0 < s.lastMessageAt then max (now - s.lastMessageAt) 0 else -1
    queueDepth := s.queue.length
    queueCapacity := queueSize
    oldestQueueItemAgeMs := ageMs now s.queueOldestLocked }

end CartoLive.Mqtt
