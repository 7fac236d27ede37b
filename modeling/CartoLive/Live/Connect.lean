import CartoLive.Live.Hub

/-!
# Connecting while events are broadcast

The hub of `hub.go` with any number of clients and any number of
`BroadcastPublicEvent` calls under way at once. `ServeHTTPWithClose` registers
its client, reads the latest sequence for `hello` and queues `hello` in three
separate steps; a broadcast raises the latest sequence by compare-and-swap,
composes its envelope, looks up the clients under the lock and then sends to
them one by one, in any order. Every step takes place at one moment, and the
steps of all the goroutines interleave in any order.

The system remembers, beside what the hub holds, every envelope that a client's
queue took, every reason why a call passed a client over, and every value that
was read from the latest sequence.
-/

namespace CartoLive.Live

open CartoLive.Lib

/-- Why a broadcast put nothing into a client's queue. -/
inductive PassedOver
  /-- The client's scope does not match the event. -/
  | outOfScope
  /-- The queue had no room. -/
  | noRoom
  /-- The client had been removed. -/
  | removed
  deriving DecidableEq

/-- A connection whose client has been registered. -/
structure Conn where
  client : Client
  scope : Option SubscriptionScope
  /-- The `hello` that `ServeHTTPWithClose` has composed. -/
  hello : Option Envelope
  /-- `hello` is queued and the pumps are started. -/
  started : Bool
  /-- Every envelope that the queue took. -/
  queued : List Envelope
  /-- The calls that passed the client over. -/
  passedOver : List (Nat × PassedOver)
  deriving DecidableEq

/-- Where a `BroadcastPublicEvent` call stands. -/
inductive CallPhase
  /-- `SetLatestSeq` loads the latest sequence. -/
  | load
  /-- `SetLatestSeq` has loaded `current` and swaps. -/
  | swap (current : Int)
  /-- `publicEventEnvelope` is next. -/
  | compose
  /-- The look-up of the clients is next. -/
  | lookUp (env : Envelope)
  /-- The clients of the look-up that the loop has not reached. -/
  | sending (env : Envelope) (rest : List Nat)
  /-- The scope of client `i` matched; its `safeSend` is next. -/
  | matched (env : Envelope) (rest : List Nat) (i : Nat)
  | returned (env : Envelope)
  deriving DecidableEq

structure Call where
  event : PublicEvent
  phase : CallPhase
  deriving DecidableEq

structure ConnectState where
  latestSeq : Int
  /-- `h.seq`, the counter of the sequences that are not durable. -/
  seq : Int
  conns : List Conn
  calls : List Call
  /-- Every value read from the latest sequence, in the order of the reads. -/
  reads : List Int
  deriving DecidableEq

inductive ConnectAct
  /-- `ServeHTTPWithClose` registers a client. -/
  | register
  /-- It reads the latest sequence and composes `hello`. -/
  | readHello (i : Nat)
  /-- It queues `hello` and starts the pumps. -/
  | sendHello (i : Nat)
  /-- `BroadcastPublicEvent` is called. -/
  | call (event : PublicEvent)
  /-- Call `j` takes its next step before the loop over the clients, or returns
  after it. -/
  | advance (j : Nat)
  /-- The loop of call `j` takes client `i` and reads its scope. -/
  | visit (j i : Nat)
  /-- The `safeSend` of call `j`. -/
  | send (j : Nat)
  /-- `SetLatestSeq`, called at startup. -/
  | setLatestSeq (seq : Int)
  /-- `LatestSeq`, called by anyone. -/
  | readLatestSeq
  /-- A `safeSend` of something else: an answer of the reader or a broadcast
  without a durable sequence. -/
  | sendOther (i : Nat) (env : Envelope)
  /-- The pump takes an envelope. -/
  | pump (i : Nat)
  /-- The reader handles `subscribe` or `unsubscribe`. -/
  | setScope (i : Nat) (scope : Option SubscriptionScope)
  | remove (i : Nat)

/-! ## The queue -/

/-- The queue is open and takes one more envelope. -/
def Client.Takes (queueSize : Nat) (c : Client) : Prop := c.closed = false ∧ c.HasRoom queueSize

instance (queueSize : Nat) (c : Client) : Decidable (c.Takes queueSize) := by
  unfold Client.Takes
  infer_instance

/-- `safeSend`, and what the queue took. -/
def Conn.safeSend (queueSize : Nat) (c : Conn) (env : Envelope) : Conn :=
  { c with
    client := Live.safeSend queueSize c.client env
    queued := if c.client.Takes queueSize then c.queued ++ [env] else c.queued }

def Conn.pass (c : Conn) (j : Nat) (reason : PassedOver) : Conn :=
  { c with passedOver := c.passedOver ++ [(j, reason)] }

/-- `safeSend` by call `j`, with the reason why nothing was queued. -/
def Conn.offer (queueSize : Nat) (c : Conn) (j : Nat) (env : Envelope) : Conn :=
  if c.client.Takes queueSize then c.safeSend queueSize env
  else (c.safeSend queueSize env).pass j (if c.client.closed then .removed else .noRoom)

/-- A client that has just been registered. -/
def Conn.fresh : Conn :=
  { client := freshClient, scope := none, hello := none, started := false, queued := []
    passedOver := [] }

/-- The sequence numbers of `hello`: the durable one, or a number of the hub's
own counter while there is none. -/
def helloEnvelope (latestSeq seq : Int) : Envelope :=
  { controlEnvelope "hello" latestSeq with seq := if latestSeq ≤ 0 then seq else latestSeq }

/-! ## The system -/

def ConnectState.setConn (s : ConnectState) (i : Nat) (c : Conn) : ConnectState :=
  { s with conns := s.conns.set i c }

def ConnectState.setPhase (s : ConnectState) (j : Nat) (call : Call) (phase : CallPhase) :
    ConnectState :=
  { s with calls := s.calls.set j { call with phase } }

/-- The clients that a look-up finds: `h.clients`. -/
def ConnectState.registered (s : ConnectState) : List Nat :=
  (List.range s.conns.length).filter fun i => s.conns[i]?.any fun c => c.client.registered

/-- What a look-up by call `j` leaves of a connection: a removed client is
passed over. -/
def Conn.lookedUp (j : Nat) (c : Conn) : Conn :=
  if c.client.registered then c else c.pass j .removed

/-- A call before and after its loop over the clients. -/
def advance (s : ConnectState) (j : Nat) (call : Call) : Option ConnectState :=
  match call.phase with
  | .load =>
    let s := { s with reads := s.reads ++ [s.latestSeq] }
    if call.event.seq ≤ s.latestSeq then some (s.setPhase j call .compose)
    else some (s.setPhase j call (.swap s.latestSeq))
  | .swap current =>
    if s.latestSeq = current then
      some ({ s with latestSeq := call.event.seq }.setPhase j call .compose)
    else some (s.setPhase j call .load)
  | .compose =>
    let env := publicEventEnvelope s.latestSeq call.event
    some ({ s with reads := s.reads ++ [s.latestSeq] }.setPhase j call (.lookUp env))
  | .lookUp env =>
    some ({ s with conns := s.conns.map (Conn.lookedUp j) }.setPhase j call
      (.sending env s.registered))
  | .sending env [] => some (s.setPhase j call (.returned env))
  | _ => none

/-- The loop of a call takes client `i`. -/
def visit (s : ConnectState) (j i : Nat) (call : Call) (c : Conn) : Option ConnectState :=
  match call.phase with
  | .sending env rest =>
    if i ∈ rest then
      if clientMatchesPublicEvent c.scope call.event then
        some (s.setPhase j call (.matched env (rest.erase i) i))
      else some ((s.setConn i (c.pass j .outOfScope)).setPhase j call (.sending env (rest.erase i)))
    else none
  | _ => none

/-- The `safeSend` of a call. -/
def sendMatched (queueSize : Nat) (s : ConnectState) (j : Nat) (call : Call) :
    Option ConnectState :=
  match call.phase with
  | .matched env rest i =>
    s.conns[i]?.map fun c =>
      (s.setConn i (c.offer queueSize j env)).setPhase j call (.sending env rest)
  | _ => none

def connectStep (queueSize : Nat) (s : ConnectState) : ConnectAct → Option ConnectState
  | .register => some { s with conns := s.conns ++ [.fresh] }
  | .readHello i => s.conns[i]?.bind fun c =>
    if c.hello = none then
      let seq := if s.latestSeq ≤ 0 then s.seq + 1 else s.seq
      some ({ s with seq, reads := s.reads ++ [s.latestSeq] }.setConn i
        { c with hello := some (helloEnvelope s.latestSeq seq) })
    else none
  | .sendHello i => s.conns[i]?.bind fun c =>
    match c.hello with
    | some env =>
      -- a full queue blocks the send, a closed one panics
      if c.started = false ∧ c.client.Takes queueSize then
        some (s.setConn i { c.safeSend queueSize env with started := true })
      else none
    | none => none
  | .call event =>
    let phase := if 0 < event.seq then .load else .compose
    some { s with calls := s.calls ++ [{ event, phase }] }
  | .advance j => s.calls[j]?.bind fun call => advance s j call
  | .visit j i => s.calls[j]?.bind fun call => s.conns[i]?.bind fun c => visit s j i call c
  | .send j => s.calls[j]?.bind fun call => sendMatched queueSize s j call
  | .setLatestSeq seq => some { s with latestSeq := setLatestSeq s.latestSeq seq }
  | .readLatestSeq => some { s with reads := s.reads ++ [s.latestSeq] }
  | .sendOther i env => s.conns[i]?.map fun c => s.setConn i (c.safeSend queueSize env)
  | .pump i => s.conns[i]?.bind fun c =>
    match c.client.send with
    | [] => none
    | _ :: rest =>
      if c.started then some (s.setConn i { c with client := { c.client with send := rest } })
      else none
  | .setScope i scope => s.conns[i]?.bind fun c =>
    if c.started then some (s.setConn i { c with scope }) else none
  | .remove i => s.conns[i]?.bind fun c =>
    if c.client.registered then
      some (s.setConn i { c with client := removeWithReason c.client })
    else none

/-- A hub without clients and without calls. -/
def ConnectState.start : ConnectState :=
  { latestSeq := 0, seq := 0, conns := [], calls := [], reads := [] }

/-- The hub, from its construction. -/
def connecting (queueSize : Nat) : TSys ConnectState ConnectAct where
  init s := s = .start
  step := connectStep queueSize

end CartoLive.Live
