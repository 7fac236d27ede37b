import CartoLive.Lib.TSys
import CartoLive.Live.Events

/-!
# The WebSocket hub

The public hub of `hub.go`, as one client without a subscription scope meets it:
the shared latest sequence, the client's bounded queue with the sender that
never blocks, the removal that closes the queue and then the connection, and the
pump that writes the queue to the socket.

The system interleaves, in any order, the broadcasts of the one worker (each
first looks up the clients and then sends), the pump, the reader's answers, and
removal in its two parts.
-/

/-!
## Subscription scopes

The scope that a WebSocket client may set (`SubscriptionScope` in `hub.go`): how
a `subscribe` message is normalised and which public events the client is then
sent. A nil slice is `none`; it imposes nothing, while an empty slice lets
nothing through.
-/

namespace CartoLive.Live

open CartoLive.Go

structure SubscriptionScope where
  regions : Option (List String)
  payloadTypes : Option (List String)
  events : Option (List String)
  bbox : List F64
  messageOnly : Bool
  deriving DecidableEq

/-- `SubscriptionScope{}`, for a `subscribe` message without a scope. -/
def SubscriptionScope.zero : SubscriptionScope :=
  { regions := none, payloadTypes := none, events := none, bbox := [], messageOnly := false }

/-! ## Normalisation -/

/-- The form of one entry of a scope list. -/
def scopeString (item : String) (upper : Bool) : String :=
  if upper then toUpper (trimSpace item) else trimSpace item

/-- The loop of `normalizeScopeStrings`; `seen` holds the entries of `out`. -/
def normalizeScopeStringsFrom (upper : Bool) : List String → List String → List String
  | out, [] => out
  | out, item :: items =>
    let item := scopeString item upper
    if item = "" ∨ item ∈ out then normalizeScopeStringsFrom upper out items
    else normalizeScopeStringsFrom upper (out ++ [item]) items

/-- `normalizeScopeStrings`: a nil slice comes back empty, not nil. -/
def normalizeScopeStrings (items : Option (List String)) (upper : Bool) : Option (List String) :=
  some (normalizeScopeStringsFrom upper [] (items.getD []))

/-- `validScopeBBox`. -/
def validScopeBBox : List F64 → Bool
  | [west, south, east, north] =>
    [west, south, east, north].all (fun value => !value.isNaN && !value.isInf) &&
      (F64.fin (-90)).le south && north.le (.fin 90) && (F64.fin (-180)).le west &&
      east.le (.fin 180) && west.lt east && south.lt north
  | _ => false

/-- `normalizeSubscriptionScope`. -/
def normalizeSubscriptionScope (scope : SubscriptionScope) : SubscriptionScope :=
  { scope with
    regions := normalizeScopeStrings scope.regions true
    payloadTypes := normalizeScopeStrings scope.payloadTypes true
    events := normalizeScopeStrings scope.events false
    bbox := if scope.bbox.length ≠ 4 ∨ validScopeBBox scope.bbox = false then [] else scope.bbox }

/-! ## Matching -/

/-- `scopeListMatches`. -/
def scopeListMatches (list : Option (List String)) (value : String) (upper : Bool) : Bool :=
  match list with
  | none => true
  | some items => items.contains (scopeString value upper)

/-- `pointInBBox`. -/
def pointInBBox (lng lat : F64) : List F64 → Bool
  | [west, south, east, north] => west.le lng && lng.le east && south.le lat && lat.le north
  | _ => false

/-- `publicEventIntersectsBBox`. -/
def publicEventIntersectsBBox (event : PublicEvent) (bbox : List F64) : Bool :=
  match event.data with
  | .node item => pointInBBox item.longitude item.latitude bbox
  | .activity item =>
    item.observerLocation.any (fun location => pointInBBox location.lng location.lat bbox) ||
      item.messageAnchor.any (fun anchor => pointInBBox anchor.lng anchor.lat bbox) ||
      bbox.length != 4
  | .pulse item =>
    item.segments.any (fun segment => pointInBBox segment.source.lng segment.source.lat bbox ||
      pointInBBox segment.target.lng segment.target.lat bbox) ||
      bbox.length != 4

/-- `clientMatchesPublicEvent`, on the scope that it reads. -/
def clientMatchesPublicEvent (scope : Option SubscriptionScope) (event : PublicEvent) : Bool :=
  match scope with
  | none => true
  | some scope =>
    scopeListMatches scope.events event.type false &&
      scopeListMatches scope.regions event.region true &&
      scopeListMatches scope.payloadTypes event.payloadTypeName true &&
      (!scope.messageOnly || event.message) &&
      (scope.bbox.length != 4 || publicEventIntersectsBBox event scope.bbox)

end CartoLive.Live

namespace CartoLive.Live

open CartoLive.Lib

/-- `Envelope`, with the fields that the hub fills for a public client. -/
structure Envelope where
  type : String
  event : String
  seq : Int
  latestSeq : Int
  receivedAt : Int
  data : Option PublicData
  deriving DecidableEq

/-- `SetLatestSeq`: the latest sequence only rises. -/
def setLatestSeq (latestSeq seq : Int) : Int := max latestSeq seq

/-- `publicEventEnvelope`. -/
def publicEventEnvelope (latestSeq : Int) (event : PublicEvent) : Envelope :=
  { type := "event", event := event.type, seq := event.seq, latestSeq
    receivedAt := event.receivedAt, data := some event.data }

/-- `hello`, `pong` and the answer to `resume`: envelopes that carry no event. -/
def controlEnvelope (type : String) (latestSeq : Int) : Envelope :=
  { type, event := "", seq := latestSeq, latestSeq, receivedAt := 0, data := none }

def Envelope.isEvent (env : Envelope) : Bool := env.type = "event"

/-- `client`: membership in `h.clients`, the queue `send`, and the overflow
flags. -/
structure Client where
  registered : Bool
  send : List Envelope
  closed : Bool
  dropped : Nat
  resetting : Bool
  deriving DecidableEq

/-- The queue takes one more envelope without blocking. -/
def Client.HasRoom (queueSize : Nat) (c : Client) : Prop := c.send.length < queueSize

instance (queueSize : Nat) (c : Client) : Decidable (c.HasRoom queueSize) := by
  unfold Client.HasRoom
  infer_instance

/-- `safeSend`: a send on a closed queue panics and is recovered; a full queue
drops the envelope and, the first time, starts the removal. -/
def safeSend (queueSize : Nat) (c : Client) (env : Envelope) : Client :=
  if c.closed then c
  else if c.HasRoom queueSize then { c with send := c.send ++ [env] }
  else { c with dropped := c.dropped + 1, resetting := true }

/-- The part of `removeWithReason` under the hub's lock. -/
def removeWithReason (c : Client) : Client := { c with registered := false, closed := true }

/-! ## The system -/

/-- `writePump`: not started before `hello` is queued, and it ends on a closed
and drained queue or on a failed write. -/
inductive PumpState
  | waiting
  | running
  | done
  deriving DecidableEq

structure HubState where
  latestSeq : Int
  client : Client
  pump : PumpState
  connOpen : Bool
  /-- The broadcast under way, and whether its look-up found the client. -/
  inFlight : Option (Envelope × Bool)
  /-- The envelopes handed to the socket. -/
  delivered : List Envelope
  /-- The event envelopes broadcast since the client was registered. -/
  broadcast : List Envelope
  /-- An event envelope has been dropped for this client. -/
  lost : Bool
  deriving DecidableEq

inductive HubAct
  /-- `ServeHTTP` queues `hello` and starts the pump. -/
  | hello
  /-- `BroadcastPublicEvent` up to its look-up of the clients. -/
  | broadcast (event : PublicEvent)
  /-- The `safeSend` of the broadcast under way. -/
  | send
  /-- The reader answers `ping` or `resume`. -/
  | reply (type : String)
  /-- The pump takes the head of the queue and writes it. -/
  | pump
  /-- A write of the pump fails, or its ticker does. -/
  | pumpFails
  /-- The pump finds the queue closed and empty. -/
  | pumpEnds
  /-- `removeWithReason`, called after an overflow, by a pump or by the reader. -/
  | remove
  /-- The end of `removeWithReason`. -/
  | closeConn

def hubStep (queueSize : Nat) (s : HubState) : HubAct → Option HubState
  | .hello =>
    -- the send of `hello` blocks while the queue is full
    if s.pump = .waiting ∧ s.client.closed = false ∧ s.client.HasRoom queueSize then
      some { s with
        client := { s.client with
          send := s.client.send ++ [controlEnvelope "hello" s.latestSeq] }
        pump := .running }
    else none
  | .broadcast event =>
    if s.inFlight = none then
      let latestSeq := if 0 < event.seq then setLatestSeq s.latestSeq event.seq else s.latestSeq
      let env := publicEventEnvelope latestSeq event
      some { s with
        latestSeq
        inFlight := some (env, s.client.registered)
        broadcast := s.broadcast ++ [env] }
    else none
  | .send =>
    match s.inFlight with
    | none => none
    | some (_, false) => some { s with inFlight := none }
    | some (env, true) =>
      let client := safeSend queueSize s.client env
      some { s with
        client
        inFlight := none
        lost := s.lost || decide (s.client.dropped < client.dropped) }
  | .reply type =>
    if type = "event" then none
    else some { s with
      client := safeSend queueSize s.client (controlEnvelope type s.latestSeq) }
  | .pump =>
    match s.client.send with
    | [] => none
    | env :: rest =>
      if s.pump = .running then
        -- a write on a closed connection fails and ends the pump
        if s.connOpen then
          some { s with
            client := { s.client with send := rest }, delivered := s.delivered ++ [env] }
        else some { s with client := { s.client with send := rest }, pump := .done }
      else none
  | .pumpFails => if s.pump = .running then some { s with pump := .done } else none
  | .pumpEnds =>
    if s.pump = .running ∧ s.client.closed = true ∧ s.client.send = [] then
      some { s with pump := .done }
    else none
  | .remove =>
    if s.client.registered then some { s with client := removeWithReason s.client } else none
  | .closeConn => if s.client.closed then some { s with connOpen := false } else none

/-- A client that has just been registered. -/
def freshClient : Client :=
  { registered := true, send := [], closed := false, dropped := 0, resetting := false }

/-- The state right after `ServeHTTP` registered the client. -/
def registeredState (latestSeq : Int) : HubState :=
  { latestSeq, client := freshClient, pump := .waiting, connOpen := true, inFlight := none
    delivered := [], broadcast := [], lost := false }

/-- The hub and one client, from the client's registration. -/
def hub (queueSize : Nat) : TSys HubState HubAct where
  init s := ∃ latestSeq, s = registeredState latestSeq
  step := hubStep queueSize

/-! ## What the sender does -/

theorem safeSend_closed {queueSize : Nat} {c : Client} (h : c.closed = true) (env : Envelope) :
    safeSend queueSize c env = c := by
  simp [safeSend, h]

theorem safeSend_room {queueSize : Nat} {c : Client} (h : c.closed = false)
    (hroom : c.HasRoom queueSize) (env : Envelope) :
    safeSend queueSize c env = { c with send := c.send ++ [env] } := by
  simp [safeSend, h, hroom]

theorem safeSend_full {queueSize : Nat} {c : Client} (h : c.closed = false)
    (hfull : ¬ c.HasRoom queueSize) (env : Envelope) :
    safeSend queueSize c env = { c with dropped := c.dropped + 1, resetting := true } := by
  simp [safeSend, h, hfull]

/-- The sender never touches membership or the state of the queue's end. -/
@[simp] theorem safeSend_closed_eq (queueSize : Nat) (c : Client) (env : Envelope) :
    (safeSend queueSize c env).closed = c.closed := by
  unfold safeSend
  split
  · rfl
  · split <;> rfl

@[simp] theorem safeSend_registered (queueSize : Nat) (c : Client) (env : Envelope) :
    (safeSend queueSize c env).registered = c.registered := by
  unfold safeSend
  split
  · rfl
  · split <;> rfl

/-- A control envelope adds no event to the queue. -/
theorem events_safeSend_control (queueSize : Nat) (c : Client) {env : Envelope}
    (h : env.isEvent = false) :
    (safeSend queueSize c env).send.filter Envelope.isEvent = c.send.filter Envelope.isEvent := by
  unfold safeSend
  split
  · rfl
  · split
    · simp [h]
    · rfl

end CartoLive.Live
