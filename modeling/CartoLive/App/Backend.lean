import CartoLive.Lib.TSys
import CartoLive.Live.CacheVersions
import CartoLive.Live.Hub
import CartoLive.Store.LiveState

/-!
# The backend around the public cache

`lifecycle.go` and `derived_ingest.go`: the derived-ingest worker that commits
events and publishes them one after the other, the projection of edges into
route summaries, and `RefreshPublicStateCache`, all on one database, one cache
and one hub sequence.

Only one worker and one refresh run at a time (`derivedIngestLoop`,
`cacheRefreshMu`). Durable public events are enabled. A commit succeeds once: a
retry that finds the rows of its first try publishes them as that try would
have. Shutdown is left out.
-/

namespace CartoLive.App

open CartoLive.Lib CartoLive.Go CartoLive.Live CartoLive.Store
open CartoLive.Store.Database (Query Read)

/-- The two things that happen to a committed event. -/
inductive Op
  | apply
  | broadcast
  deriving DecidableEq

instance : LawfulBEq (PublicEvent × Op) := inferInstance

/-- `broadcastCommittedPublicEvent` applies an event before it broadcasts it; a
node update is broadcast by `publishPublicEventBatch` and applied afterwards. -/
def publishOps (event : PublicEvent) : List (PublicEvent × Op) :=
  match event.data.kind with
  | .node => [(event, .broadcast), (event, .apply)]
  | _ => [(event, .apply), (event, .broadcast)]

/-- A `RefreshPublicStateCache` under way. -/
structure Refresh where
  generation : Nat
  serverTime : Int
  reads : Query → Option Read
  latestSeq : Option Int

/-- The reads of a refresh whose five queries have all returned. -/
def Refresh.completed (r : Refresh) : Option (Query → Read) :=
  match r.reads .nodes, r.reads .observers, r.reads .routes, r.reads .packets,
      r.reads .edges with
  | some nodes, some observers, some routes, some packets, some edges =>
    some fun
      | .nodes => nodes
      | .observers => observers
      | .routes => routes
      | .packets => packets
      | .edges => edges
  | _, _, _, _, _ => none

structure Config where
  recentPacketLimit : Int
  recentEdgeEventLimit : Int
  /-- `derivedQueueSize`, the capacity of `edgeProjectionQueue`. -/
  derivedQueueSize : Nat

structure Backend where
  db : Database
  cache : PublicStateCache
  hubSeq : Int
  /-- What the worker still has to do for the events of its last commit. -/
  pending : List (PublicEvent × Op)
  /-- The edge that the worker has committed and not yet enqueued. -/
  toProject : Option EdgeEvent
  projectionQueue : List EdgeEvent
  packetCount : Int
  refresh : Option Refresh

/-- The statistics that a refresh takes from elsewhere. -/
structure RefreshEnv where
  mqttConnected : Bool
  mqttMessages : Int
  wsClients : Int
  serverTime : Int

inductive BackendAct
  /-- `processDerivedMQTT` up to `CommitLiveEdge`. -/
  | commitEdge (ingestID : String) (edge : EdgeEvent) (status : String) (receivedAt now : Int)
  /-- `commitNonEdgeActivity` up to its commit. -/
  | commitActivity (ingestID : String) (packet : PacketObservation) (status : String)
      (location : Option PublicObserverLocation) (receivedAt now : Int)
  /-- `broadcastNodeUpdateForIATA` up to `InsertPublicEventsOnce`. -/
  | commitNode (node : Node) (iata dedupeKey : String) (now : Int)
  /-- The next operation on a committed event. -/
  | publish (now : Int)
  | enqueueEdgeProjection
  /-- `edgeProjectionLoop` projects the head of its queue. -/
  | project
  /-- The projection fails for good and leaves the edge to the backfill. -/
  | projectFails
  | backfill (since until_ limit : Int)
  /-- Other goroutines write nodes, observers and observations. -/
  | writeTables (nodes : List Node) (observers : List Observer)
      (observations : List PacketObservation)
  /-- The two writes of `refreshPacketCountOnce`. -/
  | storePacketCount (count : Int)
  | setPacketCount
  | refreshBegin (serverTime : Int)
  | refreshRead (query : Query) (now : Int)
  | refreshReadHub
  | refreshReplace (env : RefreshEnv) (now : Int)
  /-- A query of the refresh fails. -/
  | refreshFail

section Env

variable [LiveEnv]

/-- The node that `broadcastNodeUpdateForIATA` publishes and applies. -/
def broadcastNodeUpdateForIATA (filter : PublicIATAFilter) (node : Node) (iata : String) :
    Option PublicNode :=
  if iata ≠ "" ∧ filter.allows iata = false then none
  else
    (publicNodeFromNode node).bind fun publicNode =>
      let filteredIATAs := filter.allowedIATAs publicNode.iatasHeardIn
      if 0 < publicNode.iatasHeardIn.length ∧ filteredIATAs.length = 0 then none
      else some { publicNode with iatasHeardIn := filteredIATAs }

/-- `RecordExcludedIATA` of a region that is not public. -/
def recordExcluded (cache : PublicStateCache) (iata : String) : PublicStateCache :=
  if cache.filter.allows iata then cache else cache.recordExcludedIATA iata

/-- The state that `RefreshPublicStateCache` builds, and the excluded regions. -/
def refreshedState (config : Config) (s : Backend) (reads : Query → Read)
    (serverTime latestSeq : Int) (env : RefreshEnv) (now : Int) : PublicLiveState × Counter :=
  let (filtered, excluded) := s.cache.filter.filterState
    (Database.liveState reads config.recentPacketLimit config.recentEdgeEventLimit serverTime)
  let publicStats : PublicStats :=
    { packets := if 0 < s.packetCount then s.packetCount else filtered.recentPackets.length
      activeNodes := 0
      activeRoutes := 0
      mqttConnected := env.mqttConnected
      mqttMessages := env.mqttMessages
      wsClients := env.wsClients
      serverTime := env.serverTime
      latestSeq
      resolutionBuckets := []
      excludedIATAs := []
      excludedRegions := [] }
  (buildPublicLiveState filtered publicStats now, excluded)

/-- The commit that `processDerivedMQTT` asks for. -/
def liveEdgeCommitRequest (filter : PublicIATAFilter) (ingestID : String) (edge : EdgeEvent)
    (status : String) (receivedAt : Int) : Database.LiveEdgeCommitRequest :=
  { edge := { edge with ingestID := ingestID ++ ":edge" }
    resolutionStatus := status
    publishPublicEvents := filter.allows edge.iata
    activityDedupeKey := ingestID ++ ":edge-activity"
    routePulseDedupeKey := ingestID ++ ":route-pulse"
    receivedAt }

/-- The worker has finished its last message. -/
def Backend.Idle (s : Backend) : Prop := s.pending = [] ∧ s.toProject = none

instance (s : Backend) : Decidable s.Idle := by
  unfold Backend.Idle
  infer_instance

/-- One step of the worker on a committed event. -/
def publishStep (s : Backend) (now : Int) (event : PublicEvent) : Op → Backend
  | .apply =>
    { s with cache := s.cache.apply now (publicEventDataWithSeq event.data event.seq) }
  | .broadcast =>
    { s with
      hubSeq := if 0 < event.seq then setLatestSeq s.hubSeq event.seq else s.hubSeq }

def backendStep (config : Config) (s : Backend) : BackendAct → Option Backend
  | .commitEdge ingestID edge status receivedAt now =>
    if s.Idle then
      let (db, stored, events) := s.db.commitLiveEdge now
        (liveEdgeCommitRequest s.cache.filter ingestID edge status receivedAt)
      some { s with
        db
        cache := recordExcluded s.cache edge.iata
        pending := (PublicEventTable.createdRows events).flatMap publishOps
        toProject := some stored }
    else none
  | .commitActivity ingestID packet status location receivedAt now =>
    if s.Idle then
      let activity := publicActivityFromPacket { packet with resolutionStatus := status } [] location
      let event :=
        if s.cache.filter.allows packet.iata then
          some { publicEventFromData "activity" (.activity activity) now with
            dedupeKey := trimSpace (ingestID ++ ":packet-activity"), receivedAt }
        else none
      let (db, stored) := s.db.commitNonEdgeActivity now packet.id status event
      some { s with
        db
        cache := recordExcluded s.cache packet.iata
        pending := (PublicEventTable.createdRows stored).flatMap publishOps }
    else none
  | .commitNode node iata dedupeKey now =>
    if s.Idle then
      let events := (broadcastNodeUpdateForIATA s.cache.filter node iata).toList.map fun item =>
        { publicEventFromData "nodeUpdate" (.node item) now with
          dedupeKey := trimSpace dedupeKey }
      let (publicEvents, stored) := s.db.publicEvents.insertPublicEventsOnce now events
      some { s with
        db := { s.db with publicEvents }
        cache := if iata = "" then s.cache else recordExcluded s.cache iata
        pending := (PublicEventTable.createdRows stored).flatMap publishOps }
    else none
  | .publish now =>
    match s.pending with
    | [] => none
    | (event, op) :: rest => some (publishStep { s with pending := rest } now event op)
  | .enqueueEdgeProjection =>
    match s.pending, s.toProject with
    | [], some edge =>
      if edge.id ≤ 0 then some { s with toProject := none }
      else if s.projectionQueue.length < config.derivedQueueSize then
        some { s with toProject := none, projectionQueue := s.projectionQueue ++ [edge] }
      else none
    | _, _ => none
  | .project =>
    match s.projectionQueue with
    | [] => none
    | edge :: rest =>
      some { s with
        db := s.db.upsertPublicRouteSummariesTx edge, projectionQueue := rest }
  | .projectFails => some { s with projectionQueue := s.projectionQueue.tail }
  | .backfill since until_ limit =>
    some { s with db := s.db.backfillPublicRouteSummaries since until_ limit }
  | .writeTables nodes observers observations =>
    some { s with db := { s.db with nodes, observers, observations } }
  | .storePacketCount count => some { s with packetCount := count }
  | .setPacketCount => some { s with cache := s.cache.setPacketCount s.packetCount }
  | .refreshBegin serverTime =>
    if s.refresh.isNone then
      some { s with
        refresh := some
          { generation := s.cache.mutationGeneration, serverTime, reads := fun _ => none
            latestSeq := none } }
    else none
  | .refreshRead query now =>
    s.refresh.bind fun r =>
      if (r.reads query).isNone then
        some { s with
          refresh := some
            { r with reads := Function.update r.reads query (some { db := s.db, now }) } }
      else none
  | .refreshReadHub =>
    s.refresh.bind fun r =>
      if r.completed.isSome ∧ r.latestSeq = none then
        some { s with refresh := some { r with latestSeq := some s.hubSeq } }
      else none
  | .refreshReplace env now =>
    s.refresh.bind fun r =>
      r.completed.bind fun reads =>
        r.latestSeq.bind fun latestSeq =>
          let (state, excluded) :=
            refreshedState config s reads r.serverTime latestSeq env now
          some { s with
            cache := s.cache.replace now state excluded (some r.generation)
            refresh := none }
  | .refreshFail => if s.refresh.isSome then some { s with refresh := none } else none

/-- The backend after start-up on any database: the hub knows the latest stored
sequence (`SetLatestSeq` of `New`), and the cache is still warming. -/
def backend (config : Config) : TSys Backend BackendAct where
  init s :=
    s.cache = newPublicStateCache s.cache.filter ∧
      s.hubSeq = s.db.publicEvents.latestPublicSeq ∧
      s.Idle ∧ s.projectionQueue = [] ∧ s.refresh = none
  step := backendStep config

end Env

/-! ## Pieces of example runs -/

/-- The backend started on an empty database with every region public. -/
def emptyBackend : Backend :=
  { db := emptyDatabase, cache := newPublicStateCache (newPublicIATAFilter []), hubSeq := 0
    pending := [], toProject := none, projectionQueue := [], packetCount := 0, refresh := none }

def sampleConfig : Config :=
  { recentPacketLimit := 200, recentEdgeEventLimit := 200, derivedQueueSize := 8 }

def sampleEnv : RefreshEnv :=
  { mqttConnected := true, mqttMessages := 0, wsClients := 0, serverTime := 0 }

/-- A refresh up to its last query. -/
def refreshQueries : List BackendAct :=
  [.refreshBegin 0, .refreshRead .nodes 0, .refreshRead .observers 0, .refreshRead .routes 0,
    .refreshRead .packets 0, .refreshRead .edges 0]

/-- A refresh that nothing interrupts. -/
def wholeRefresh : List BackendAct :=
  refreshQueries ++ [.refreshReadHub, .refreshReplace sampleEnv 0]

/-- A packet that reaches no map. -/
def samplePacket (id : Int) : PacketObservation :=
  { id, packetHash := "p", payloadTypeName := "ADVERT", routeTypeName := "FLOOD"
    observerPublicKey := "OBS", iata := "YOW", heardAt := 1000, hopCount := 0
    resolutionStatus := "", messageSender := "", messageText := "", invalidForMap := false }

/-- Its commit as the message `ingestID`. -/
def samplePacketCommit (ingestID : String) (id : Int) : BackendAct :=
  .commitActivity ingestID (samplePacket id) "no_path" none 1000 1000

/-- A node in Ottawa. -/
def sampleNode (publicKey : String) (lastSeen : Int) : Node :=
  { nodeID := publicKey, publicKey, name := "Node", role := "repeater", latitude := some (.fin 45)
    longitude := some (.fin (-75)), lastSeen, firstSeen := lastSeen, iatasHeardIn := ["YOW"]
    observationCount := 1 }

def sampleEndpoint (nodeID : String) (lat : F64) : EdgeEndpoint :=
  { nodeID, name := nodeID, lat, lng := .fin (-75), pathHash3 := "" }

/-- An edge with one segment. -/
def sampleEdge : EdgeEvent :=
  { ingestID := "", id := 0, packetHash := "p", observationID := 1, iata := "YOW"
    payloadTypeName := "ADVERT", messageSender := "", messageText := "", messageAnchor := none
    heardAt := 1000
    segments :=
      [{ source := sampleEndpoint "A" (.fin 45), target := sampleEndpoint "B" (.fin 46)
         distanceKM := .fin 111 }] }

theorem emptyBackend_init [LiveEnv] (config : Config) : (backend config).init emptyBackend :=
  ⟨rfl, rfl, ⟨rfl, rfl⟩, rfl, rfl⟩

end CartoLive.App
