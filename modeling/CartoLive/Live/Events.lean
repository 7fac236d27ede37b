import CartoLive.Go.Text

/-!
# The records of the live map

The records of `events.go` and `public.go`, with every field that a modelled
function reads, fills or copies. `int`, `int64` and millisecond times are `Int`;
a pointer is an `Option`; `map[string]int64` is an association list, which the
counters of `PublicStats` never look up by position.

`Data any` of a public event is one of the three public records. Where the
source's word is reserved, the field takes the word of the database column or
its plain meaning: `at` is `occurredAt`, `from` and `to` are `source` and
`target`.
-/

namespace CartoLive.Live

open CartoLive.Go

/-! ## Stored records -/

structure Node where
  nodeID : String
  publicKey : String
  name : String
  role : String
  latitude : Option F64
  longitude : Option F64
  lastSeen : Int
  firstSeen : Int
  iatasHeardIn : List String
  observationCount : Int
  deriving DecidableEq

structure Observer where
  publicKey : String
  iata : String
  name : String
  latitude : Option F64
  longitude : Option F64
  lastSeen : Int
  packetCount : Int
  deriving DecidableEq

structure PacketObservation where
  id : Int
  packetHash : String
  payloadTypeName : String
  routeTypeName : String
  observerPublicKey : String
  iata : String
  heardAt : Int
  hopCount : Int
  resolutionStatus : String
  messageSender : String
  messageText : String
  invalidForMap : Bool
  deriving DecidableEq

structure EdgeEndpoint where
  nodeID : String
  name : String
  lat : F64
  lng : F64
  pathHash3 : String
  deriving DecidableEq

structure EdgeSegment where
  source : EdgeEndpoint
  target : EdgeEndpoint
  distanceKM : F64
  deriving DecidableEq

structure MessageAnchor where
  kind : String
  endpoint : EdgeEndpoint
  deriving DecidableEq

structure EdgeEvent where
  ingestID : String
  id : Int
  packetHash : String
  observationID : Int
  iata : String
  payloadTypeName : String
  messageSender : String
  messageText : String
  messageAnchor : Option MessageAnchor
  heardAt : Int
  segments : List EdgeSegment
  deriving DecidableEq

/-! ## Public records -/

structure PublicNode where
  seq : Int
  id : String
  label : String
  role : String
  isObserver : Bool
  latitude : F64
  longitude : F64
  lastSeen : Int
  firstSeen : Int
  iatasHeardIn : List String
  regionsHeardIn : List String
  activityCount : Int
  deriving DecidableEq

structure PublicRouteEndpoint where
  nodeID : String
  label : String
  lat : F64
  lng : F64
  pathHash3 : String
  deriving DecidableEq

structure PublicRouteSegment where
  routeID : String
  source : PublicRouteEndpoint
  target : PublicRouteEndpoint
  distanceKM : F64
  deriving DecidableEq

structure PublicRoute where
  id : String
  source : PublicRouteEndpoint
  target : PublicRouteEndpoint
  distanceKM : F64
  packetCount : Int
  lastHeard : Int
  frequencyBucket : Int
  payloadTypeNames : List String
  deriving DecidableEq

structure PublicObserverLocation where
  label : String
  iata : String
  region : String
  lat : F64
  lng : F64
  deriving DecidableEq

structure PublicMessageAnchor where
  kind : String
  nodeID : String
  label : String
  lat : F64
  lng : F64
  deriving DecidableEq

structure PublicActivity where
  seq : Int
  id : String
  kind : String
  payloadTypeName : String
  routeTypeName : String
  iata : String
  region : String
  heardAt : Int
  hopCount : Int
  hasRoute : Bool
  animationState : String
  resolutionBucket : String
  observerLocation : Option PublicObserverLocation
  routeIDs : List String
  endpointLabels : List String
  messageSender : String
  messageText : String
  messageAnchor : Option PublicMessageAnchor
  deriving DecidableEq

structure PublicRoutePulse where
  seq : Int
  id : String
  iata : String
  region : String
  payloadTypeName : String
  messageSender : String
  messageText : String
  messageAnchor : Option PublicMessageAnchor
  heardAt : Int
  segments : List PublicRouteSegment
  deriving DecidableEq

/-- `State`: what the five queries of a live-state read return. -/
structure State where
  serverTime : Int
  nodes : List Node
  observers : List Observer
  routes : List PublicRoute
  recentPackets : List PacketObservation
  recentEdgeEvents : List EdgeEvent
  deriving DecidableEq

/-- `map[string]int64`. -/
abbrev Counter := List (String × Int)

structure PublicStats where
  packets : Int
  activeNodes : Int
  activeRoutes : Int
  mqttConnected : Bool
  mqttMessages : Int
  wsClients : Int
  serverTime : Int
  latestSeq : Int
  resolutionBuckets : List (String × Counter)
  excludedIATAs : Counter
  excludedRegions : Counter
  deriving DecidableEq

structure PublicLiveState where
  serverTime : Int
  stats : PublicStats
  nodes : List PublicNode
  routes : List PublicRoute
  recentPulses : List PublicRoutePulse
  recentActivity : List PublicActivity
  updatedAt : Int
  deriving DecidableEq

/-! ## Durable events -/

/-- The values that `PublicEvent.Data` takes. -/
inductive PublicData
  | node (item : PublicNode)
  | activity (item : PublicActivity)
  | pulse (item : PublicRoutePulse)
  deriving DecidableEq

structure PublicEvent where
  dedupeKey : String
  seq : Int
  type : String
  occurredAt : Int
  receivedAt : Int
  iata : String
  region : String
  payloadTypeName : String
  message : Bool
  routeIDs : List String
  nodeIDs : List String
  data : PublicData
  deriving DecidableEq

structure PublicEventsResponse where
  serverTime : Int
  oldestSeq : Int
  latestSeq : Int
  events : List PublicEvent
  nextCursor : String
  resetRequired : Bool
  deriving DecidableEq

/-- `PublicEventDataWithSeq`. -/
def publicEventDataWithSeq (data : PublicData) (seq : Int) : PublicData :=
  match data with
  | .node item => .node { item with seq }
  | .activity item => .activity { item with seq }
  | .pulse item => .pulse { item with seq }

/-- The sequence number inside the data. -/
def PublicData.seq : PublicData → Int
  | .node item => item.seq
  | .activity item => item.seq
  | .pulse item => item.seq

@[simp] theorem seq_publicEventDataWithSeq (data : PublicData) (seq : Int) :
    (publicEventDataWithSeq data seq).seq = seq := by
  cases data <;> rfl

/-! ## Records for example runs -/

/-- A node in Ottawa. -/
def PublicNode.sample (id : String) (lastSeen : Int) : PublicNode :=
  { seq := 0, id, label := "Node", role := "unknown", isObserver := false, latitude := .fin 45
    longitude := .fin (-75), lastSeen, firstSeen := lastSeen, iatasHeardIn := ["YOW"]
    regionsHeardIn := ["YOW"], activityCount := 1 }

/-- A packet that an observer heard in Ottawa. -/
def PublicActivity.sample (id : String) (heardAt : Int) : PublicActivity :=
  { seq := 0, id, kind := "packet", payloadTypeName := "ADVERT", routeTypeName := "", iata := "YOW"
    region := "YOW", heardAt, hopCount := 0, hasRoute := false, animationState := "unmapped"
    resolutionBucket := "observer_only", observerLocation := none, routeIDs := []
    endpointLabels := [], messageSender := "", messageText := "", messageAnchor := none }

/-- A pulse over the given segments. -/
def PublicRoutePulse.sample (id : String) (heardAt : Int) (segments : List PublicRouteSegment) :
    PublicRoutePulse :=
  { seq := 0, id, iata := "YOW", region := "YOW", payloadTypeName := "ADVERT", messageSender := ""
    messageText := "", messageAnchor := none, heardAt, segments }

/-- A node update in a region. -/
def PublicEvent.sample (region : String) (occurredAt : Int) : PublicEvent :=
  { dedupeKey := "", seq := 0, type := "nodeUpdate", occurredAt, receivedAt := occurredAt
    iata := "", region, payloadTypeName := "", message := false, routeIDs := [], nodeIDs := ["n"]
    data := .node (.sample "n" occurredAt) }

end CartoLive.Live
