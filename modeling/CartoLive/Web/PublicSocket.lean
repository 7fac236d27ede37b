import CartoLive.Lib.TSys

/-!
# The reconnecting socket

`connectPublicSocket` of `ws.ts`: one socket variable and three timer variables
that the listeners of all sockets share. A step is one event of a socket, one
timer that fires or the caller's `close`; the callbacks do not call `close`
themselves.

A browser opens a connecting socket at most once, delivers messages to an open
one only, and ends every socket with one `close` event, which may come late. A
socket that the peer closes counts as open until that event.
-/

namespace CartoLive.Web

open CartoLive.Lib

/-! ## Data -/

inductive ReadyState
  | connecting
  | opened
  | closing
  | closed
  deriving DecidableEq

/-- A socket that was created, and whether its `close` has been called. -/
structure WebSocket where
  readyState : ReadyState
  abandoned : Bool
  deriving DecidableEq

/-- A socket that has not been closed by either side. -/
def WebSocket.Live (socket : WebSocket) : Prop :=
  socket.abandoned = false ∧ socket.readyState ≠ .closed

instance (socket : WebSocket) : Decidable socket.Live := by
  unfold WebSocket.Live
  infer_instance

inductive TimerKind
  | retry
  | ping
  | liveness
  deriving DecidableEq

/-- The variables of `connectPublicSocket`, with the sockets it created and the
timers that the window holds for it. -/
structure PublicSocket where
  sockets : List WebSocket
  /-- `socket`, by its place among the sockets. -/
  socket : Option Nat
  closed : Bool
  retryTimer : Option Nat
  pingTimer : Option Nat
  livenessTimer : Option Nat
  attempts : Nat
  armed : List (Nat × TimerKind)
  nextTimer : Nat
  /-- The statuses given to `onStatus`. -/
  statuses : List String

namespace PublicSocket

/-! ## Timers -/

def status (s : PublicSocket) (text : String) : PublicSocket :=
  { s with statuses := s.statuses ++ [text] }

/-- `clearTimeout` and `clearInterval`. -/
def clearTimer (armed : List (Nat × TimerKind)) (timer : Option Nat) : List (Nat × TimerKind) :=
  armed.filter fun t => some t.1 ≠ timer

def clearPingTimer (s : PublicSocket) : PublicSocket :=
  { s with armed := clearTimer s.armed s.pingTimer, pingTimer := none }

def clearLivenessTimer (s : PublicSocket) : PublicSocket :=
  { s with armed := clearTimer s.armed s.livenessTimer, livenessTimer := none }

/-- `setTimeout` and `setInterval`: the timer gets the next number. -/
def arm (s : PublicSocket) (kind : TimerKind) : PublicSocket :=
  { s with armed := s.armed ++ [(s.nextTimer, kind)], nextTimer := s.nextTimer + 1 }

def resetLivenessTimer (s : PublicSocket) : PublicSocket :=
  let s := s.clearLivenessTimer
  if s.closed = true then s
  else { s.arm .liveness with livenessTimer := some s.nextTimer }

def scheduleReconnect (s : PublicSocket) : PublicSocket :=
  if s.closed = true ∨ s.retryTimer ≠ none then s
  else
    { (s.status "recovering").arm .retry with
      attempts := s.attempts + 1
      retryTimer := some s.nextTimer }

/-! ## Sockets -/

/-- `socket?.close()`. -/
def closeSocket (s : PublicSocket) : PublicSocket :=
  match s.socket with
  | none => s
  | some id =>
    { s with
      sockets := s.sockets.modify id fun socket =>
        { readyState := if socket.readyState = .closed then .closed else .closing
          abandoned := true } }

/-- The current socket is given up. -/
def abandon (s : PublicSocket) : PublicSocket := { s.closeSocket with socket := none }

def handleSendFailure (s : PublicSocket) : PublicSocket :=
  ((s.clearPingTimer.clearLivenessTimer.status "error").abandon).scheduleReconnect

/-- `sendJSON`, whose `send` may throw. -/
def sendJSON (s : PublicSocket) (fails : Bool) : PublicSocket × Bool :=
  match s.socket.bind fun id => s.sockets[id]? with
  | none => (s, false)
  | some socket =>
    if socket.readyState ≠ .opened then (s, false)
    else if fails then (s.handleSendFailure, false)
    else (s, true)

/-- `connect`, whose constructor may throw. -/
def connect (s : PublicSocket) (fails : Bool) : PublicSocket :=
  if s.closed = true then s
  else
    let s := s.status (if s.attempts = 0 then "connecting" else "recovering")
    if fails then (s.status "error").scheduleReconnect
    else
      { s with
        sockets := s.sockets ++ [{ readyState := .connecting, abandoned := false }]
        socket := some s.sockets.length }

def setReadyState (s : PublicSocket) (id : Nat) (readyState : ReadyState) : PublicSocket :=
  { s with sockets := s.sockets.modify id fun socket => { socket with readyState } }

/-! ## Listeners -/

/-- The interval of pings starts. -/
def startPings (s : PublicSocket) : PublicSocket :=
  { s.arm .ping with pingTimer := some s.nextTimer }

/-- The `open` listener. -/
def onOpen (s : PublicSocket) (subscriptions fails : Bool) : PublicSocket :=
  let s := ({ s with attempts := 0 }.status "live").resetLivenessTimer
  if subscriptions then
    let (s, sent) := s.sendJSON fails
    if sent then s.startPings else s
  else s.startPings

/-- The `close` listener. -/
def onClose (s : PublicSocket) : PublicSocket :=
  let s := s.clearPingTimer.clearLivenessTimer
  if s.closed = true then s.status "closed" else s.scheduleReconnect

/-- The `message` listener; `onMessage` gets a message that parses. -/
def onMessage (s : PublicSocket) (parses : Bool) : PublicSocket :=
  let s := s.resetLivenessTimer
  if parses then s else s.status "bad-message"

/-- The callback of the liveness timer. -/
def onSilence (s : PublicSocket) : PublicSocket :=
  (({ s with livenessTimer := none }.status "stale").abandon).scheduleReconnect

/-- The `close` of the caller. -/
def close (s : PublicSocket) : PublicSocket :=
  let s := { s with closed := true, armed := clearTimer s.armed s.retryTimer }
  s.clearPingTimer.clearLivenessTimer.closeSocket

end PublicSocket

/-! ## Steps -/

inductive SocketAct
  /-- The `open` event of a socket; its first `send` may throw. -/
  | opens (id : Nat) (fails : Bool)
  | message (id : Nat) (parses : Bool)
  | error (id : Nat)
  | closes (id : Nat)
  /-- A timer fires; the constructor or the `send` it leads to may throw. -/
  | fires (timer : Nat × TimerKind) (fails : Bool)
  | callerCloses

def socketStep (subscriptions : Bool) (s : PublicSocket) : SocketAct → Option PublicSocket
  | .opens id fails =>
    (s.sockets[id]?).bind fun socket =>
      if socket.readyState = .connecting then
        some ((s.setReadyState id .opened).onOpen subscriptions fails)
      else none
  | .message id parses =>
    (s.sockets[id]?).bind fun socket =>
      if socket.readyState = .opened then some (s.onMessage parses) else none
  | .error id =>
    (s.sockets[id]?).bind fun socket =>
      if socket.readyState ≠ .closed then some (s.status "error") else none
  | .closes id =>
    (s.sockets[id]?).bind fun socket =>
      if socket.readyState ≠ .closed then some ((s.setReadyState id .closed).onClose) else none
  | .fires timer fails =>
    if timer ∈ s.armed then
      match timer.2 with
      | .retry =>
        some ({ s with armed := PublicSocket.clearTimer s.armed timer.1, retryTimer := none }.connect
          fails)
      | .ping => some (s.sendJSON fails).1
      | .liveness =>
        some ({ s with armed := PublicSocket.clearTimer s.armed timer.1 }.onSilence)
    else none
  | .callerCloses => some s.close

/-- The variables before the first `connect`. -/
def unconnectedSocket : PublicSocket :=
  { sockets := [], socket := none, closed := false, retryTimer := none, pingTimer := none
    livenessTimer := none, attempts := 0, armed := [], nextTimer := 0, statuses := [] }

/-- `connectPublicSocket` in a window with web sockets. -/
def publicSocket (subscriptions : Bool) : TSys PublicSocket SocketAct where
  init s := ∃ fails, s = unconnectedSocket.connect fails
  step := socketStep subscriptions

end CartoLive.Web
