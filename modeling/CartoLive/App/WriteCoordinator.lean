import CartoLive.Lib.TSys

/-!
# The write coordinator

`write_coordinator.go`: callers of `Do` offer their writes on one channel, and
the run loop collects them into three queues, picks one at a time and sends its
result back. The steps are those of the callers, of the contexts, of `Close`
and of the loop, in any order; a `select` takes any of its ready cases.

The history records what the properties speak of. Runtime statistics are left
out.
-/

namespace CartoLive.App

open CartoLive.Lib

/-! ## Data -/

/-- `writeLane`. -/
inductive WriteLane
  | primary
  | liveCore
  | background
  deriving DecidableEq

/-- What `ctx.Err()` can be. -/
inductive ContextError
  | canceled
  | deadlineExceeded
  deriving DecidableEq

/-- The errors of coordinated writes and of `Do`. -/
inductive WriteError
  | context (err : ContextError)
  | text (message : String)
  deriving DecidableEq

/-- An `error` value; `none` is `nil`. -/
abbrev WriteResult := Option WriteError

/-- Where a call of `Do` is: in its first `select`, in its second, or behind
its `return`. -/
inductive DoPhase
  | offering
  | waiting
  | returned
  deriving DecidableEq

/-- A call of `Do` with its `coordinatedWrite`. -/
structure DoCall where
  lane : WriteLane
  /-- Whether the call has a function. -/
  hasFn : Bool
  /-- `ctx.Err()`. -/
  ctxErr : Option ContextError
  phase : DoPhase
  /-- The buffered `result` channel. -/
  result : Option WriteResult
  deriving DecidableEq

/-- `queues`, with calls known by their numbers. -/
structure Queues where
  primary : List Nat
  liveCore : List Nat
  background : List Nat
  deriving DecidableEq

namespace Queues

def get (q : Queues) : WriteLane → List Nat
  | .primary => q.primary
  | .liveCore => q.liveCore
  | .background => q.background

def set (q : Queues) (lane : WriteLane) (ids : List Nat) : Queues :=
  match lane with
  | .primary => { q with primary := ids }
  | .liveCore => { q with liveCore := ids }
  | .background => { q with background := ids }

def empty : Queues := { primary := [], liveCore := [], background := [] }

@[simp] theorem get_set_same (q : Queues) (lane : WriteLane) (ids : List Nat) :
    (q.set lane ids).get lane = ids := by
  cases lane <;> rfl

theorem get_set_ne (q : Queues) {lane lane' : WriteLane} (ids : List Nat) (h : lane' ≠ lane) :
    (q.set lane ids).get lane' = q.get lane' := by
  cases lane <;> cases lane' <;> first | rfl | exact absurd rfl h

/-- Add a request to its lane. -/
def push (q : Queues) (lane : WriteLane) (id : Nat) : Queues := q.set lane (q.get lane ++ [id])

end Queues

/-- Where the run loop is. -/
inductive RunLoop
  /-- Waiting with empty queues. -/
  | idle
  | draining
  /-- A request has been taken from its queue. -/
  | picked (id : Nat)
  | running (id : Nat)
  /-- The result is about to be sent. -/
  | sending (id : Nat) (result : WriteResult)
  | done
  deriving DecidableEq

/-- One selection of the loop. -/
structure Pick where
  id : Nat
  lane : WriteLane
  hasPrimary : Bool
  hasLive : Bool
  deriving DecidableEq

inductive WriteEvent
  /-- A call of `Do` has begun. -/
  | called (id : Nat) (hasFn : Bool)
  /-- The loop has received a request. -/
  | collected (id : Nat) (lane : WriteLane)
  | picked (pick : Pick)
  | started (id : Nat)
  | finished (id : Nat) (result : WriteResult)
  | cancelled (id : Nat) (err : ContextError)
  | closed
  | returned (id : Nat) (result : WriteResult)
  deriving DecidableEq

structure Coordinator where
  /-- `c.ctx` is cancelled. -/
  closed : Bool
  /-- The channel `in`. -/
  inbox : List Nat
  queues : Queues
  nextLive : WriteLane
  loop : RunLoop
  calls : List DoCall
  history : List WriteEvent

/-! ## The run loop -/

/-- The `switch` of `run`: the lane and the next value of `nextLive`. -/
def selectLane (q : Queues) (nextLive : WriteLane) : WriteLane × WriteLane :=
  let hasPrimary := q.primary ≠ []
  let hasLive := q.liveCore ≠ []
  if hasPrimary ∧ hasLive then
    (nextLive, if nextLive = .primary then .liveCore else .primary)
  else if hasPrimary then (.primary, .liveCore)
  else if hasLive then (.liveCore, .primary)
  else (.background, nextLive)

/-- The head of the loop: with empty queues it waits. -/
def RunLoop.next (q : Queues) : RunLoop := if q = .empty then .idle else .draining

/-- The capacity of the channel `in`. -/
def inboxSize : Nat := 8192

/-! ## Steps -/

inductive WriteAct
  /-- A call of `Do` begins. -/
  | call (lane : WriteLane) (hasFn : Bool)
  | cancel (id : Nat) (err : ContextError)
  | close
  /-- `c.in <- request`. -/
  | offer (id : Nat)
  /-- `<-ctx.Done()` in either `select`. -/
  | giveUp (id : Nat)
  /-- `<-c.ctx.Done()` in either `select`. -/
  | giveUpClosed (id : Nat)
  /-- `<-request.result`. -/
  | takeResult (id : Nat)
  /-- The loop receives a request while it waits. -/
  | receive
  /-- The loop sees the end of `c.ctx` while it waits. -/
  | quit
  | drain
  /-- The channel is empty, and a request is picked. -/
  | pick
  /-- `request.ctx.Err()`. -/
  | check
  | fnReturns (result : WriteResult)
  /-- `request.result <- err`. -/
  | deliver

/-- A call after its `return`. -/
def Coordinator.returns (s : Coordinator) (id : Nat) (call : DoCall) (result : WriteResult) :
    Coordinator :=
  { s with
    calls := s.calls.set id { call with phase := .returned }
    history := s.history ++ [.returned id result] }

/-- The loop puts the next request of the channel into its queue. -/
def Coordinator.collect (s : Coordinator) : Option Coordinator :=
  match s.inbox with
  | [] => none
  | id :: inbox =>
    s.calls[id]?.map fun call =>
      { s with
        inbox
        queues := s.queues.push call.lane id
        loop := .draining
        history := s.history ++ [.collected id call.lane] }

/-- The error of a call without function. -/
def nilWriteError : WriteError := .text "nil coordinated write"

def writeStep (s : Coordinator) : WriteAct → Option Coordinator
  | .call lane hasFn =>
    let id := s.calls.length
    let call : DoCall := { lane, hasFn, ctxErr := none, phase := .offering, result := none }
    let s' := { s with calls := s.calls ++ [call], history := s.history ++ [.called id hasFn] }
    some (if hasFn then s' else s'.returns id call (some nilWriteError))
  | .cancel id err =>
    (s.calls[id]?).bind fun call =>
      if call.ctxErr = none then
        some { s with
          calls := s.calls.set id { call with ctxErr := some err }
          history := s.history ++ [.cancelled id err] }
      else none
  | .close => some { s with closed := true, history := s.history ++ [.closed] }
  | .offer id =>
    (s.calls[id]?).bind fun call =>
      if call.phase = .offering ∧ s.inbox.length < inboxSize then
        some { s with
          inbox := s.inbox ++ [id]
          calls := s.calls.set id { call with phase := .waiting } }
      else none
  | .giveUp id =>
    (s.calls[id]?).bind fun call =>
      match call.ctxErr with
      | some err =>
        if call.phase ≠ .returned then some (s.returns id call (some (.context err))) else none
      | none => none
  | .giveUpClosed id =>
    (s.calls[id]?).bind fun call =>
      if call.phase ≠ .returned ∧ s.closed = true then
        some (s.returns id call (some (.context .canceled)))
      else none
  | .takeResult id =>
    (s.calls[id]?).bind fun call =>
      match call.result with
      | some result => if call.phase = .waiting then some (s.returns id call result) else none
      | none => none
  | .receive => if s.loop = .idle then s.collect else none
  | .quit => if s.loop = .idle ∧ s.closed = true then some { s with loop := .done } else none
  | .drain => if s.loop = .draining then s.collect else none
  | .pick =>
    if s.loop = .draining ∧ s.inbox = [] then
      let (lane, nextLive) := selectLane s.queues s.nextLive
      match s.queues.get lane with
      | [] => none
      | id :: rest =>
        let pick : Pick :=
          { id, lane, hasPrimary := s.queues.primary ≠ [], hasLive := s.queues.liveCore ≠ [] }
        some { s with
          queues := s.queues.set lane rest
          nextLive
          loop := .picked id
          history := s.history ++ [.picked pick] }
    else none
  | .check =>
    match s.loop with
    | .picked id =>
      (s.calls[id]?).map fun call =>
        match call.ctxErr with
        | some err => { s with loop := .sending id (some (.context err)) }
        | none => { s with loop := .running id, history := s.history ++ [.started id] }
    | _ => none
  | .fnReturns result =>
    match s.loop with
    | .running id =>
      some { s with
        loop := .sending id result
        history := s.history ++ [.finished id result] }
    | _ => none
  | .deliver =>
    match s.loop with
    | .sending id result =>
      (s.calls[id]?).map fun call =>
        { s with
          calls := s.calls.set id { call with result := some result }
          loop := .next s.queues }
    | _ => none

/-- `newWriteCoordinator`. -/
def newWriteCoordinator : Coordinator :=
  { closed := false, inbox := [], queues := .empty, nextLive := .primary, loop := .idle
    calls := [], history := [] }

/-- Any number of calls, cancellations and closings beside the run loop. -/
def writeCoordinator : TSys Coordinator WriteAct where
  init s := s = newWriteCoordinator
  step := writeStep

theorem newWriteCoordinator_init : writeCoordinator.init newWriteCoordinator := rfl

end CartoLive.App
