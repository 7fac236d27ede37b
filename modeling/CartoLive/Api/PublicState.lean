import CartoLive.Live.CacheRuns

/-!
# The public state and bootstrap requests

`Serialized` of `public_cache.go` and the handler `publicState` of `routes.go`.
Marshalling and compression are an `Encoder`; where one of them fails (a coordinate
that is not finite has no JSON text) it leaves no bytes. Last `publicBootstrap` of
`public_extended.go`: a short answer built from the cached state, under a cursor that is
read afterwards from the hub and the database. The map settings, health and clusters of
the answers are left out.
-/

namespace CartoLive.Api

open CartoLive.Live

abbrev Bytes := List UInt8

/-- `json.Marshal` of a state and the gzip writer. -/
structure Encoder where
  json : PublicLiveState → Bytes
  gzip : Bytes → Bytes

/-! ## The serialization -/

structure PublicStateSerialization where
  json : Bytes
  gzip : Bytes
  etag : String
  deriving DecidableEq

def stateETag (updatedAt : Int) : String := "W/\"" ++ toString updatedAt ++ "\""

theorem stateETag_inj {m n : Int} (h : stateETag m = stateETag n) : m = n := by
  unfold stateETag at h
  have hinner := String.append_right_inj _ |>.mp ((String.append_left_inj _).mp h)
  exact Go.toString_inj hinner

namespace Encoder

variable (e : Encoder)

/-- `serializePublicState`. -/
def serializePublicState (state : PublicLiveState) : PublicStateSerialization :=
  if e.json state = [] then { json := [], gzip := [], etag := "" }
  else { json := e.json state, gzip := e.gzip (e.json state), etag := stateETag state.updatedAt }

/-- `Serialized`. -/
def serialized (c : PublicStateCache) : Option PublicStateSerialization :=
  let serialized :=
    (c.serialized.map e.serializePublicState).getD { json := [], gzip := [], etag := "" }
  if !c.ready || serialized.json.length = 0 then none else some serialized

end Encoder

/-! ## The handler -/

structure StateRequest where
  ifNoneMatch : String
  acceptEncoding : String

structure StateResponse where
  status : Nat
  etag : String
  contentEncoding : String
  body : Bytes
  deriving DecidableEq

/-- What the server fills into a state that it does not serve from the
serialization. -/
structure ServerNumbers where
  now : Int
  mqttConnected : Bool
  mqttMessages : Int
  wsClients : Int
  latestSeq : Int

def ServerNumbers.fill (n : ServerNumbers) (state : PublicLiveState) : PublicLiveState :=
  { state with
    serverTime := n.now
    stats := { state.stats with
      serverTime := n.now
      mqttConnected := n.mqttConnected
      mqttMessages := n.mqttMessages
      wsClients := n.wsClients
      latestSeq := n.latestSeq } }

/-- The body of `writeJSON`: a line, unless the state has no JSON text. -/
def Encoder.writeJSON (e : Encoder) (state : PublicLiveState) : Bytes :=
  if e.json state = [] then [] else e.json state ++ [10]

/-- The body of `writeError`, which names no cause from status 500 on. -/
def internalServerError : Bytes :=
  "\x7b\"error\":\"internal server error\"\x7d\n".toUTF8.toList

/-- `publicState` of a server with a state cache. -/
def publicState (e : Encoder) (n : ServerNumbers) (c : PublicStateCache) (r : StateRequest) :
    StateResponse :=
  match e.serialized c with
  | some s =>
    if r.ifNoneMatch = s.etag then
      { status := 304, etag := s.etag, contentEncoding := "", body := [] }
    else if (Go.toLower r.acceptEncoding).contains "gzip" ∧ 0 < s.gzip.length then
      { status := 200, etag := s.etag, contentEncoding := "gzip", body := s.gzip }
    else { status := 200, etag := s.etag, contentEncoding := "", body := s.json }
  | none =>
    match c.snapshot with
    | some state =>
      let etag := "\"" ++ toString state.updatedAt ++ "\""
      if r.ifNoneMatch = etag then { status := 304, etag, contentEncoding := "", body := [] }
      else { status := 200, etag, contentEncoding := "", body := e.writeJSON (n.fill state) }
    | none => { status := 503, etag := "", contentEncoding := "", body := internalServerError }

/-! ## The bootstrap -/

/-- `latestPublicSeq`: the hub's sequence, or the stored one when that is higher;
the store read may fail. -/
def latestPublicSeq (hubSeq : Int) (stored : Option Int) : Int :=
  match stored with
  | some seq => if hubSeq < seq then seq else hubSeq
  | none => hubSeq

structure PublicBootstrapResponse where
  serverTime : Int
  stats : PublicStats
  latestSeq : Int
  recentActivity : List PublicActivity
  deriving DecidableEq

/-- `publicBootstrap` on the copy of a cached state. -/
def publicBootstrap (state : PublicLiveState) (now latestSeq : Int) : PublicBootstrapResponse :=
  { serverTime := now
    stats := { state.stats with latestSeq }
    latestSeq
    recentActivity := state.recentActivity.take 40 }

end CartoLive.Api
