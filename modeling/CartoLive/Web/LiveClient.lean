import CartoLive.Lib.TSys
import CartoLive.Live.Hub
import CartoLive.Web.LiveCursor

/-!
# The live connection of the browser

The message handler, the animation-frame flush and the paged recovery of
`App.tsx`, on the refs they share, and the system they run in: the server's
event stream and hub, one connection that delivers in order what is broadcast
or a `lagged` message in its place, and one page request at a time. A task of
the browser runs to its end before the next one; what its promises resolve at
once belongs to the task.

The page is mounted throughout. A recovery that ends with a reset leaves
`resetRecoveryActive` set: the snapshot that would clear it is left out. The
server's events pass the checks that `fetchPublicEvents` makes on their shape.
-/

namespace CartoLive.Web

open CartoLive.Lib CartoLive.Live CartoLive.Store CartoLive.Api

/-! ## The refs -/

/-- A durable event as the reducer sees it. -/
structure DurableEvent where
  seq : Int
  event : String
  data : Option PublicData
  deriving DecidableEq

def durableEvent (row : PublicEvent) : DurableEvent :=
  { seq := row.seq, event := row.type, data := some row.data }

def PublicLiveEnvelope.toDurable (message : PublicLiveEnvelope) : DurableEvent :=
  { seq := durableSequence message.seq, event := message.event, data := message.data }

/-- The durable events among some envelopes. -/
def durableEvents (messages : List PublicLiveEnvelope) : List DurableEvent :=
  (durableMessages messages).map PublicLiveEnvelope.toDurable

/-- Where a page request is: on its way to the handler, between the two reads
of the handler, or on its way back. -/
inductive Fetch
  | asked
  | bounds (bounds : Int × Int)
  | answered (response : PublicEventsResponse)

/-- `recover` while it awaits a page of `recoverPublicEventPages`. -/
structure RecoveryRun where
  requestedTarget : Option Int
  loop : RecoveryState
  fetch : Fetch

structure Browser where
  lastAppliedEventSeq : Int
  lastQueuedEventSeq : Int
  latestObservedSeq : Int
  latestInboundSeq : Int
  pendingMessages : List PublicLiveEnvelope
  /-- `flushMessagesFrameRef` holds a requested frame. -/
  flushArmed : Bool
  queuedRecoveryTarget : Int
  queuedRecoveryPoll : Bool
  /-- `recoveryInFlight`, with what `recover` awaits. -/
  recovery : Option RecoveryRun
  recoveryRetryTimer : Bool
  resetRecoveryActive : Bool
  /-- The durable events that were given to the reducer. -/
  reduced : List DurableEvent

namespace Browser

/-- The largest sequence among pending messages, or the given one. -/
def queuedSeq (cursor : Int) (messages : List PublicLiveEnvelope) : Int :=
  (messages.map fun message => durableSequence message.seq).foldl max cursor

/-! ## Recovery -/

/-- What `recover` does with a result. -/
def settle (b : Browser) (result : PublicEventRecoveryResult) : Browser :=
  if result.status = .resetRequired ∨ result.status = .unrecoverableGap then
    let resetTarget :=
      liveCursorResetTarget result.latestSeq b.lastAppliedEventSeq b.latestInboundSeq
    { b with
      latestObservedSeq := resetTarget
      latestInboundSeq := resetTarget
      queuedRecoveryTarget := resetTarget
      queuedRecoveryPoll := false
      pendingMessages := []
      lastQueuedEventSeq := resetTarget
      flushArmed := false
      resetRecoveryActive := true
      recovery := none }
  else if result.status = .caughtUp then
    let cursor := max b.lastAppliedEventSeq result.cursor
    let pending := retainLiveEnvelopesAfterCursor b.pendingMessages cursor
    { b with
      lastAppliedEventSeq := cursor
      pendingMessages := pending
      lastQueuedEventSeq := queuedSeq cursor pending
      latestObservedSeq := max b.latestObservedSeq result.latestSeq
      recovery := none }
  else
    { b with latestObservedSeq := max b.latestObservedSeq result.latestSeq, recovery := none }

/-- A target that is not positive stands for none. -/
def targetOrPoll (target : Int) : Option Int := if 0 < target then some target else none

/-- One round of the `while` loop of `recover`, up to its first page request. -/
def startRecovery (b : Browser) : Browser :=
  let requestedTarget := targetOrPoll b.queuedRecoveryTarget
  let b := { b with queuedRecoveryTarget := 0, queuedRecoveryPoll := false }
  let cursor := max 0 b.lastAppliedEventSeq
  let latestSeq := max cursor (durableSequence requestedTarget)
  if requestedTarget.isSome ∧ latestSeq ≤ cursor then
    -- no page is needed, and with nothing queued the loop ends
    b.settle { status := if cursor = 0 then .empty else .caughtUp, cursor, latestSeq, pages := 0 }
  else
    { b with
      recovery := some { requestedTarget, loop := { cursor, latestSeq, pages := 0 }, fetch := .asked } }

/-- The condition of the `while` loop of `recover`. -/
def RecoveryQueued (b : Browser) : Prop :=
  b.queuedRecoveryPoll = true ∨ b.lastAppliedEventSeq < b.queuedRecoveryTarget

instance (b : Browser) : Decidable b.RecoveryQueued := by
  unfold RecoveryQueued
  infer_instance

/-- `recover` from the head of its loop. -/
def recover (b : Browser) : Browser :=
  if b.RecoveryQueued then b.startRecovery else { b with recovery := none }

/-- The part of `backfillOrRefresh` that queues its target. -/
def queueRecovery (b : Browser) (latestSeq : Option Int) : Browser :=
  let recoveryTarget := durableSequence latestSeq
  if 0 < recoveryTarget then
    { b with queuedRecoveryTarget := max b.queuedRecoveryTarget recoveryTarget }
  else { b with queuedRecoveryPoll := true }

/-- `backfillOrRefresh`. -/
def backfillOrRefresh (b : Browser) (latestSeq : Option Int) : Browser :=
  let b := b.queueRecovery latestSeq
  if b.recovery.isSome ∨ b.resetRecoveryActive = true then b
  else { b with recoveryRetryTimer := false }.recover

/-- The `applyPage` of `recover`. -/
def applyPage (b : Browser) (events : List PublicEvent) : Browser :=
  let unapplied := (events.filter fun event =>
    b.lastAppliedEventSeq < finiteSequence event.seq).insertionSort fun left right =>
      left.seq ≤ right.seq
  if unapplied = [] then b
  else
    let confirmedCursor := (unapplied.getLast?.map PublicEvent.seq).getD b.lastAppliedEventSeq
    let pending := retainLiveEnvelopesAfterCursor b.pendingMessages confirmedCursor
    { b with
      lastAppliedEventSeq := confirmedCursor
      pendingMessages := pending
      lastQueuedEventSeq := queuedSeq confirmedCursor pending
      reduced := b.reduced ++ unapplied.map durableEvent }

/-- A page arrives: `recoverPublicEventPages` goes on, or returns to `recover`. -/
def pageArrives (b : Browser) (run : RecoveryRun) (response : PublicEventsResponse) : Browser :=
  let (events, next) := recoverPageStep run.loop response
  let b := if events = [] then b else b.applyPage events
  match next with
  | .inl result =>
    let b := b.settle result
    if b.resetRecoveryActive = true then b else b.recover
  | .inr loop => { b with recovery := some { run with loop, fetch := .asked } }

/-- A page request fails: the target stays queued for a retry. -/
def fetchFails (b : Browser) (run : RecoveryRun) : Browser :=
  let b := { b with recovery := none, recoveryRetryTimer := true }
  match run.requestedTarget with
  | some target => { b with queuedRecoveryTarget := max b.queuedRecoveryTarget target }
  | none => { b with queuedRecoveryPoll := true }

/-- The retry timer fires. -/
def retry (b : Browser) : Browser :=
  { b with recoveryRetryTimer := false }.backfillOrRefresh (targetOrPoll b.queuedRecoveryTarget)

/-! ## Live messages -/

/-- `scheduleMessagesFlush`. -/
def scheduleMessagesFlush (b : Browser) : Browser :=
  if b.flushArmed = true ∨ b.pendingMessages = [] then b else { b with flushArmed := true }

/-- The queue is given up; a recovery fetches what was in it. -/
def clearPending (b : Browser) : Browser :=
  { b with pendingMessages := [], lastQueuedEventSeq := b.lastAppliedEventSeq }

/-- `publicSequence(message.latestSeq) || publicSequence(message.seq)`. -/
def messageTarget (message : PublicLiveEnvelope) : Int :=
  if durableSequence message.latestSeq = 0 then durableSequence message.seq
  else durableSequence message.latestSeq

/-- The batch that the next flush applies, and the messages it leaves. -/
def nextBatch (sorter : EnvelopeSort) (b : Browser) :
    IncreasingLiveEnvelopeBatch × List PublicLiveEnvelope :=
  let (due, pending) := takeDueLiveEnvelopes sorter b.pendingMessages
  (takeIncreasingLiveEnvelopes due b.lastAppliedEventSeq, pending)

/-- `flushMessages`. -/
def flushMessages (sorter : EnvelopeSort) (b : Browser) : Browser :=
  if b.pendingMessages = [] then { b with flushArmed := false }
  else
    let (batch, pending) := b.nextBatch sorter
    let b := { b with flushArmed := false }
    if batch.invalid = true then
      let recoveryTarget := (b.pendingMessages.map messageTarget).foldl max b.latestObservedSeq
      b.clearPending.backfillOrRefresh (targetOrPoll recoveryTarget)
    else
      let b :=
        if batch.accepted = [] then b
        else
          { b with
            lastAppliedEventSeq := batch.cursor
            reduced := b.reduced ++ durableEvents batch.accepted }
      { b with
        pendingMessages :=
          retainLiveEnvelopesAfterCursor pending b.lastAppliedEventSeq }.scheduleMessagesFlush

/-- The end of `enqueueMessage`: the message joins the queue if it fits. -/
def pushMessage (sorter : EnvelopeSort) (b : Browser) (message : PublicLiveEnvelope)
    (lastQueuedEventSeq recoveryTarget : Int) : Browser :=
  let nextPending := b.pendingMessages ++ [message]
  let cappedPending := capLiveEnvelopeQueue sorter nextPending
  if cappedPending.length ≠ nextPending.length then
    b.clearPending.backfillOrRefresh (targetOrPoll recoveryTarget)
  else { b with pendingMessages := cappedPending, lastQueuedEventSeq }.scheduleMessagesFlush

/-- `enqueueMessage`. -/
def enqueueMessage (sorter : EnvelopeSort) (b : Browser) (message : PublicLiveEnvelope) :
    Browser :=
  let recoveryTarget := max (durableSequence message.seq) (durableSequence message.latestSeq)
  match classifyLiveEnvelopeSequence message with
  | .invalid => b.clearPending.backfillOrRefresh (targetOrPoll recoveryTarget)
  | .durable seq =>
    if b.resetRecoveryActive = true then b.backfillOrRefresh (targetOrPoll recoveryTarget)
    else if shouldQueueDurableLiveSequence seq b.lastAppliedEventSeq b.lastQueuedEventSeq then
      b.pushMessage sorter message seq recoveryTarget
    else b
  | .fallback => b.pushMessage sorter message b.lastQueuedEventSeq recoveryTarget

/-- The sequence that a message shows is noted. -/
def observe (b : Browser) (type : LiveMessageType) (observedSeq : Int) : Browser :=
  { b with
    latestInboundSeq :=
      if type = .hello then observedSeq
      else if 0 < observedSeq then max b.latestInboundSeq observedSeq
      else b.latestInboundSeq
    latestObservedSeq := max b.latestObservedSeq observedSeq }

/-- The callback of `connectPublicSocket`. -/
def onMessage (sorter : EnvelopeSort) (b : Browser) (message : PublicLiveEnvelope) : Browser :=
  let observedSeq := max (durableSequence message.latestSeq) (durableSequence message.seq)
  let b := b.observe message.type observedSeq
  match message.type with
  | .hello =>
    if helloRequiresCursorResetProbe observedSeq b.lastAppliedEventSeq then
      b.backfillOrRefresh none
    else b.backfillOrRefresh (targetOrPoll observedSeq)
  | .pong => b
  | .lagged =>
    { b.clearPending with flushArmed := false }.backfillOrRefresh
      (targetOrPoll (max observedSeq (durableSequence message.toSeq)))
  | .event => b.enqueueMessage sorter message

/-- No message is pending and no recovery is in flight or queued. -/
def Quiescent (b : Browser) : Prop :=
  b.pendingMessages = [] ∧ b.recovery.isNone ∧ ¬ b.RecoveryQueued ∧ b.resetRecoveryActive = false

instance (b : Browser) : Decidable b.Quiescent := by
  unfold Quiescent
  infer_instance

end Browser

/-- The refs of a page whose snapshot has a cursor. -/
def freshBrowser (cursor observed inbound : Int) : Browser :=
  { lastAppliedEventSeq := cursor, lastQueuedEventSeq := cursor, latestObservedSeq := observed
    latestInboundSeq := inbound, pendingMessages := [], flushArmed := false
    queuedRecoveryTarget := 0, queuedRecoveryPoll := false, recovery := none
    recoveryRetryTimer := false, resetRecoveryActive := false, reduced := [] }

/-! ## The system -/

/-- A number of an envelope on the wire; zero is left out. -/
def omitZero (value : Int) : Option Int := if value = 0 then none else some value

/-- An envelope without an event. -/
def controlMessage (type : LiveMessageType) (seq latestSeq toSeq serverTime : Int) :
    PublicLiveEnvelope :=
  { type, event := "", seq := omitZero seq, latestSeq := omitZero latestSeq, toSeq := omitZero toSeq
    serverTime := omitZero serverTime, receivedAt := omitZero serverTime
    displayAt := omitZero serverTime, data := none }

/-- `publicEventEnvelope` on the wire. -/
def eventMessage (latestSeq : Int) (event : PublicEvent) (serverTime : Int) : PublicLiveEnvelope :=
  { type := .event, event := event.type, seq := omitZero event.seq
    latestSeq := omitZero latestSeq, toSeq := none, serverTime := omitZero serverTime
    receivedAt := omitZero event.receivedAt, displayAt := omitZero serverTime
    data := some event.data }

/-- `unsequencedEventEnvelope` on the wire. -/
def unsequencedMessage (latestSeq : Int) (event : String) (data : PublicData) (serverTime : Int) :
    PublicLiveEnvelope :=
  { type := .event, event, seq := none, latestSeq := omitZero latestSeq, toSeq := none
    serverTime := omitZero serverTime, receivedAt := omitZero serverTime
    displayAt := omitZero serverTime, data := some data }

structure Live where
  table : PublicEventTable
  hubSeq : Int
  /-- The stored events that are still to be broadcast. -/
  unsent : List PublicEvent
  /-- The messages on the open connection. -/
  inbox : Option (List PublicLiveEnvelope)
  browser : Browser
  /-- The applied cursor at the start. -/
  start : Int

inductive LiveAct
  /-- An event for the endpoint's regions is stored. -/
  | commit (now : Int) (event : PublicEvent)
  /-- The next stored event is broadcast. -/
  | broadcast (serverTime : Int)
  /-- The next stored event is broadcast and dropped for this client, which is
  told so. -/
  | broadcastLagged (seq serverTime : Int)
  | broadcastUnsequenced (event : String) (data : PublicData) (serverTime : Int)
  | pong (seq serverTime : Int)
  /-- `ServeHTTP`; a hub without a sequence numbers its `hello` itself. -/
  | connect (helloSeq : Nat) (serverTime : Int)
  | disconnect
  /-- The browser handles the next message of its connection. -/
  | receive
  /-- The requested animation frame runs. -/
  | flush
  | readBounds
  | readPage (now : Int)
  | pageArrives
  | fetchFails
  | retry
  /-- `resume`, visibility and fallback polling. -/
  | poll

/-- The hub after a broadcast. -/
def Live.hubAfter (s : Live) (event : PublicEvent) : Int :=
  if 0 < event.seq then setLatestSeq s.hubSeq event.seq else s.hubSeq

/-- The page size of a recovery. -/
def recoveryPageLimit : Int := 1000

def liveStep (server : Server) (sorter : EnvelopeSort) (s : Live) : LiveAct → Option Live
  | .commit now event =>
    if server.admits (PublicEventTable.normalizeEvent now event) then
      let (table, stored, created) := s.table.insertPublicEventOnceTx now event
      some { s with table, unsent := if created then s.unsent ++ [stored] else s.unsent }
    else none
  | .broadcast serverTime =>
    match s.unsent with
    | [] => none
    | event :: unsent =>
      let hubSeq := s.hubAfter event
      some { s with
        hubSeq
        unsent
        inbox := s.inbox.map fun messages =>
          messages ++ [eventMessage hubSeq event serverTime] }
  | .broadcastLagged seq serverTime =>
    match s.unsent with
    | [] => none
    | event :: unsent =>
      let hubSeq := s.hubAfter event
      some { s with
        hubSeq
        unsent
        inbox := s.inbox.map fun messages =>
          messages ++ [controlMessage .lagged seq hubSeq event.seq serverTime] }
  | .broadcastUnsequenced event data serverTime =>
    some { s with
      inbox := s.inbox.map fun messages =>
        messages ++ [unsequencedMessage s.hubSeq event data serverTime] }
  | .pong seq serverTime =>
    some { s with
      inbox := s.inbox.map fun messages =>
        messages ++ [controlMessage .pong seq s.hubSeq 0 serverTime] }
  | .connect helloSeq serverTime =>
    if s.inbox.isNone then
      let seq : Int := if s.hubSeq ≤ 0 then helloSeq + 1 else s.hubSeq
      some { s with inbox := some [controlMessage .hello seq s.hubSeq 0 serverTime] }
    else none
  | .disconnect => some { s with inbox := none }
  | .receive =>
    match s.inbox with
    | some (message :: messages) =>
      some { s with inbox := some messages, browser := s.browser.onMessage sorter message }
    | _ => none
  | .flush =>
    if s.browser.flushArmed = true then
      some { s with browser := s.browser.flushMessages sorter }
    else none
  | .readBounds =>
    match s.browser.recovery with
    | some { requestedTarget, loop, fetch := .asked } =>
      let run := { requestedTarget, loop, fetch := .bounds s.table.publicSeqBounds }
      some { s with browser := { s.browser with recovery := some run } }
    | _ => none
  | .readPage now =>
    match s.browser.recovery with
    | some { requestedTarget, loop, fetch := .bounds bounds } =>
      match publicEvents server now (recoveryQuery loop.cursor recoveryPageLimit) bounds s.table with
      | .ok response =>
        let run := { requestedTarget, loop, fetch := .answered response }
        some { s with browser := { s.browser with recovery := some run } }
      | .error _ => none
    | _ => none
  | .pageArrives =>
    match s.browser.recovery with
    | some { requestedTarget, loop, fetch := .answered response } =>
      let run := { requestedTarget, loop, fetch := .answered response }
      some { s with browser := s.browser.pageArrives run response }
    | _ => none
  | .fetchFails =>
    s.browser.recovery.map fun run => { s with browser := s.browser.fetchFails run }
  | .retry =>
    if s.browser.recoveryRetryTimer = true then some { s with browser := s.browser.retry } else none
  | .poll => some { s with browser := s.browser.backfillOrRefresh none }

/-- The browser from any cursor, with the server in the middle of its work; all
stored events are for the endpoint's regions and numbered safely. -/
def live (server : Server) (sorter : EnvelopeSort) : TSys Live LiveAct where
  init s :=
    (∀ row ∈ s.table.rows, server.admits row = true) ∧ s.table.sequence ≤ maxSafeInteger ∧
      0 ≤ s.hubSeq ∧ s.hubSeq ≤ s.table.sequence ∧
      s.unsent = s.table.rows.filter (fun row => s.hubSeq < row.seq) ∧
      s.inbox = none ∧ 0 ≤ s.start ∧
      s.browser = freshBrowser s.start s.browser.latestObservedSeq s.browser.latestInboundSeq
  step := liveStep server sorter

end CartoLive.Web
