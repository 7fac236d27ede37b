import CartoLive.Live.Public
import CartoLive.Store.PublicEvents

/-!
# The database behind the live state

The tables that a live-state read sees, its five queries (`stats.go`, `nodes.go`,
`packets.go`, `edges.go`, `public_routes.go`), the transaction that commits an
edge with its public events, and the projection of edges into route summaries.

Rows that a query leaves in an unspecified order come in the order of the table.
The packet-path projection and the columns that no modelled query reads are left
out.
-/

namespace CartoLive.Store

open CartoLive.Go CartoLive.Live

/-- The tables. `edges` holds the rows of `live_edge_events`, whose region is
that of their observation; `projected` is `public_route_summary_edges`. -/
structure Database where
  nodes : List Node
  observers : List Observer
  observations : List PacketObservation
  edges : List EdgeEvent
  edgeSequence : Int
  projected : List Int
  summaries : List PublicRoute
  publicEvents : PublicEventTable

def emptyDatabase : Database :=
  { nodes := [], observers := [], observations := [], edges := [], edgeSequence := 0
    projected := [], summaries := [], publicEvents := .empty }

namespace Database

/-! ## Queries -/

/-- `maxFutureEdgeSkew`. -/
def maxFutureEdgeSkew : Int := 300000

/-- `LEFT JOIN packet_observations`: the edge as a query returns it. -/
def joined (db : Database) (edge : EdgeEvent) : EdgeEvent :=
  { edge with
    ingestID := ""
    iata := ((db.observations.find? fun o => o.id = edge.observationID).map
      PacketObservation.iata).getD "" }

def heardEdgeBefore (a b : EdgeEvent) : Prop :=
  if a.heardAt = b.heardAt then b.id ≤ a.id else b.heardAt < a.heardAt

def heardPacketBefore (a b : PacketObservation) : Prop :=
  if a.heardAt = b.heardAt then b.id ≤ a.id else b.heardAt < a.heardAt

instance : DecidableRel heardEdgeBefore := fun a b => by
  unfold heardEdgeBefore
  infer_instance

instance : DecidableRel heardPacketBefore := fun a b => by
  unfold heardPacketBefore
  infer_instance

/-- `RecentEdgeEvents`. -/
def recentEdgeEvents (db : Database) (limit : Int) (now : Int) : List EdgeEvent :=
  let limit := if limit ≤ 0 ∨ 2000 < limit then 200 else limit.toNat
  (((db.edges.filter fun edge => edge.heardAt ≤ now + maxFutureEdgeSkew).insertionSort
    heardEdgeBefore).take limit).map db.joined

/-- `RecentPackets`. -/
def recentPackets (db : Database) (limit : Int) (now : Int) : List PacketObservation :=
  let limit := if limit ≤ 0 ∨ 1000 < limit then 100 else limit.toNat
  ((db.observations.filter fun packet =>
    packet.heardAt ≤ now + maxFutureEdgeSkew).insertionSort heardPacketBefore).take limit

/-- `publicRouteFrequencyBucket`. -/
def publicRouteFrequencyBucket (count maxCount : Int) : Int :=
  if maxCount ≤ 1 then 0 else max 0 (min 4 (4 * count / maxCount))

def summaryBefore (a b : PublicRoute) : Prop :=
  if a.lastHeard = b.lastHeard then b.packetCount ≤ a.packetCount else b.lastHeard < a.lastHeard

instance : DecidableRel summaryBefore := fun a b => by
  unfold summaryBefore
  infer_instance

/-- The sanitizing of an endpoint when a summary is written and read. -/
def sanitizeEndpoint (endpoint : PublicRouteEndpoint) : PublicRouteEndpoint :=
  { endpoint with
    nodeID := publicNodeID endpoint.nodeID
    label := publicDisplayText endpoint.label 80 }

/-- The row limit that `PublicRouteSummaries` works with. -/
def summaryLimit (limit : Int) : Nat :=
  if limit ≤ 0 then 2500 else if 5000 < limit then 5000 else limit.toNat

/-- A summary as a read returns it. -/
def readSummary (maxCount : Int) (route : PublicRoute) : PublicRoute :=
  { route with
    source := sanitizeEndpoint route.source
    target := sanitizeEndpoint route.target
    frequencyBucket := publicRouteFrequencyBucket route.packetCount maxCount }

/-- `PublicRouteSummaries`. -/
def publicRouteSummaries (db : Database) (limit : Int) : List PublicRoute :=
  let routes := (db.summaries.insertionSort summaryBefore).take (summaryLimit limit)
  routes.map (readSummary (routes.foldl (fun m route => max m route.packetCount) 1))

/-- `Observers`. -/
def observersQuery (db : Database) : List Observer :=
  (db.observers.insertionSort fun a b => b.lastSeen ≤ a.lastSeen).take 1000

section Env

variable [LiveEnv]

/-- `Nodes` with `positioned`. -/
def positionedNodes (db : Database) : List Node :=
  ((db.nodes.filter fun node =>
    (coordinateInclusion node.latitude node.longitude "").mappable).insertionSort
      fun a b => b.lastSeen ≤ a.lastSeen).take 2000

/-- The queries of `LiveState`, which run concurrently. -/
inductive Query
  | nodes
  | observers
  | routes
  | packets
  | edges
  deriving DecidableEq

/-- What a query sees: the database and the time. -/
structure Read where
  db : Database
  now : Int

/-- `LiveState`: its five queries may see five states of the database. -/
def liveState (reads : Query → Read) (packetLimit edgeLimit serverTime : Int) : State :=
  { serverTime
    nodes := (reads .nodes).db.positionedNodes
    observers := (reads .observers).db.observersQuery
    routes := (reads .routes).db.publicRouteSummaries (max edgeLimit 2500)
    recentPackets := (reads .packets).db.recentPackets packetLimit (reads .packets).now
    recentEdgeEvents := (reads .edges).db.recentEdgeEvents edgeLimit (reads .edges).now }

/-! ## Commits -/

/-- The `UPDATE packet_observations SET resolution_status` of a commit. -/
def setResolution (db : Database) (observationID : Int) (status : String) : Database :=
  { db with
    observations := db.observations.map fun o =>
      if o.id = observationID then { o with resolutionStatus := status } else o }

/-- `insertEdgeEventCoreTx`: a repeated ingest identifier keeps the stored row. -/
def insertEdgeEventCoreTx (db : Database) (edge : EdgeEvent) (status : String) :
    Database × EdgeEvent :=
  match db.edges.find? fun row => row.ingestID = edge.ingestID ∧ row.ingestID ≠ "" with
  | some row => (db, { edge with id := row.id })
  | none =>
    let db := if status = "" then db else db.setResolution edge.observationID status
    let edge := { edge with id := db.edgeSequence + 1 }
    ({ db with edges := db.edges ++ [edge], edgeSequence := db.edgeSequence + 1 }, edge)

omit [LiveEnv] in
/-- A new message stores its edge under the next identifier. -/
theorem insertEdgeEventCoreTx_new {db : Database} {edge : EdgeEvent}
    (h : (db.edges.find? fun row => row.ingestID = edge.ingestID ∧ row.ingestID ≠ "") = none)
    (status : String) :
    (db.insertEdgeEventCoreTx edge status).2 = { edge with id := db.edgeSequence + 1 } ∧
      (db.insertEdgeEventCoreTx edge status).1.edges =
        db.edges ++ [{ edge with id := db.edgeSequence + 1 }] ∧
      (db.insertEdgeEventCoreTx edge status).1.edgeSequence = db.edgeSequence + 1 ∧
      (db.insertEdgeEventCoreTx edge status).1.projected = db.projected ∧
      (db.insertEdgeEventCoreTx edge status).1.summaries = db.summaries := by
  unfold insertEdgeEventCoreTx
  rw [h]
  by_cases hstatus : status = ""
  · simp [hstatus]
  · simp [hstatus, setResolution]

omit [LiveEnv] in
/-- A repeated message stores nothing. -/
theorem insertEdgeEventCoreTx_repeated {db : Database} {edge row : EdgeEvent}
    (h : (db.edges.find? fun row => row.ingestID = edge.ingestID ∧ row.ingestID ≠ "") = some row)
    (status : String) :
    db.insertEdgeEventCoreTx edge status = (db, { edge with id := row.id }) := by
  unfold insertEdgeEventCoreTx
  rw [h]

/-- The events of an edge, in the order in which `CommitLiveEdge` stores them. -/
def edgeEvents (edge : EdgeEvent) (activityKey pulseKey : String) (receivedAt now : Int) :
    List PublicEvent :=
  ((publicActivityFromEdge edge).map fun activity =>
    { publicEventFromData "activity" (.activity activity) now with
      dedupeKey := trimSpace activityKey, receivedAt }).toList ++
  ((publicRoutePulseFromEdge edge []).map fun pulse =>
    { publicEventFromData "routePulse" (.pulse pulse) now with
      dedupeKey := trimSpace pulseKey, receivedAt }).toList

/-- `LiveEdgeCommitRequest`. -/
structure LiveEdgeCommitRequest where
  edge : EdgeEvent
  resolutionStatus : String
  publishPublicEvents : Bool
  activityDedupeKey : String
  routePulseDedupeKey : String
  receivedAt : Int

/-- `CommitLiveEdge`: the edge and its public events in one transaction. -/
def commitLiveEdge (db : Database) (now : Int) (request : LiveEdgeCommitRequest) :
    Database × EdgeEvent × List (PublicEvent × Bool) :=
  let (db, edge) := db.insertEdgeEventCoreTx request.edge request.resolutionStatus
  let events :=
    if request.publishPublicEvents then
      edgeEvents edge request.activityDedupeKey request.routePulseDedupeKey request.receivedAt now
    else []
  let (publicEvents, stored) := db.publicEvents.insertPublicEventsOnce now events
  ({ db with publicEvents }, edge, stored)

/-- `CommitNonEdgeActivity`: the resolution of a packet and its public event. -/
def commitNonEdgeActivity (db : Database) (now observationID : Int) (status : String)
    (event : Option PublicEvent) : Database × List (PublicEvent × Bool) :=
  let db := db.setResolution observationID status
  let (publicEvents, stored) := db.publicEvents.insertPublicEventsOnce now event.toList
  ({ db with publicEvents }, stored)

/-! ## Route summaries -/

/-- The row that a segment of an edge adds to or overwrites. -/
def summaryRow (edge : EdgeEvent) (segment : PublicRouteSegment) : PublicRoute :=
  { id := trimSpace segment.routeID
    source := { sanitizeEndpoint segment.source with
      pathHash3 := publicDisplayText segment.source.pathHash3 500 }
    target := { sanitizeEndpoint segment.target with
      pathHash3 := publicDisplayText segment.target.pathHash3 500 }
    distanceKM := segment.distanceKM
    packetCount := 1
    lastHeard := edge.heardAt
    frequencyBucket := 0
    payloadTypeNames := [] }

/-- `publicRoutePayloadTypesTx`. -/
def payloadTypes (existing : List String) (payloadType : String) : List String :=
  uniqueSorted ((existing ++ [payloadType]).map upperTrim)

/-- `INSERT .. ON CONFLICT(route_id) DO UPDATE` for one segment. -/
def upsertSegment (edge : EdgeEvent) (rows : List PublicRoute) (segment : PublicRouteSegment) :
    List PublicRoute :=
  let row := summaryRow edge segment
  if row.id = "" then rows
  else if rows.any fun r => r.id = row.id then
    rows.map fun r =>
      if r.id = row.id then
        { row with
          packetCount := r.packetCount + 1
          lastHeard := max r.lastHeard edge.heardAt
          payloadTypeNames := payloadTypes r.payloadTypeNames edge.payloadTypeName }
      else r
  else rows ++ [{ row with payloadTypeNames := payloadTypes [] edge.payloadTypeName }]

/-- `upsertPublicRouteSummariesTx`: every edge counts once. -/
def upsertPublicRouteSummariesTx (db : Database) (edge : EdgeEvent) : Database :=
  if edge.id ≤ 0 ∨ edge.id ∈ db.projected then db
  else
    let db := { db with projected := db.projected ++ [edge.id] }
    match publicRoutePulseFromEdge edge [] with
    | none => db
    | some pulse =>
      { db with summaries := pulse.segments.foldl (upsertSegment edge) db.summaries }

/-- `publicRouteSummaryMissingEdges`. -/
def missingEdges (db : Database) (since until_ : Int) (limit : Nat) : List EdgeEvent :=
  (((db.edges.filter fun edge =>
    decide (since ≤ edge.heardAt) && decide (edge.heardAt ≤ until_) &&
      decide (edge.id ∉ db.projected)).insertionSort fun a b => heardEdgeBefore b a).take
    limit).map db.joined

/-- `BackfillPublicRouteSummaries`. -/
def backfillPublicRouteSummaries (db : Database) (since until_ limit : Int) : Database :=
  let limit := if limit ≤ 0 then 500 else if 2000 < limit then 2000 else limit.toNat
  (db.missingEdges since until_ limit).foldl upsertPublicRouteSummariesTx db

end Env

end Database

end CartoLive.Store
