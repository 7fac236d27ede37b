import CartoLive.Lib.Keyed
import CartoLive.Web.LiveCursor
import Mathlib.Data.List.Dedup
import Mathlib.Order.Lex
import Mathlib.Data.List.Lex
import Mathlib.Data.List.Sort

/-!
# The state of the map page

The reducer of `state.ts`: the state that a snapshot gives, what a batch of live
envelopes does to it, how the routes of the accepted pulses are brought into the route
list in one go, and how a late snapshot is merged in. Records that come over the wire are
those of the server; a text or number that the server leaves out is the empty or zero one.

The timing of the route reducer and the replay options of a pulse are left out. A `Map`
that is only looked up is a function, one that is iterated is the list of its entries.
The logarithms of `frequencyBucket` are exact.
-/

namespace CartoLive.Web

open CartoLive.Go CartoLive.Live CartoLive.Lib

/-! ## Records -/

/-- `PublicActivity` in the browser. -/
structure LiveActivity extends PublicActivity where
  receivedAt : Option Int
  displayAt : Option Int
  deriving DecidableEq

/-- `PublicRoutePulse` in the browser. -/
structure LiveRoutePulse extends PublicRoutePulse where
  receivedAt : Option Int
  displayAt : Option Int
  deriving DecidableEq

/-- `event` and `data` of an event envelope. -/
inductive LiveData
  | nodeUpdate (data : PublicNode)
  | activity (data : LiveActivity)
  | routePulse (data : LiveRoutePulse)
  deriving DecidableEq

/-- The part of a `PublicLiveEnvelope` that the reducer reads. -/
structure LiveMessage where
  type : LiveMessageType
  seq : Option Int
  latestSeq : Option Int
  serverTime : Option Int
  receivedAt : Option Int
  data : Option LiveData
  deriving DecidableEq

structure PublicObserverBurst where
  id : String
  payloadTypeName : String
  heardAt : Int
  receivedAt : Option Int
  displayAt : Option Int
  seq : Int
  location : PublicObserverLocation
  messageSender : String
  messageText : String
  messageAnchor : Option PublicMessageAnchor
  deriving DecidableEq

structure RouteTraceHit where
  routeID : String
  heardAt : Int
  payloadTypeName : String
  source : PublicRouteEndpoint
  target : PublicRouteEndpoint
  distanceKM : F64
  deriving DecidableEq

/-- `PublicLiveState` in the browser, without the map settings. -/
structure LiveState where
  serverTime : Int
  stats : Option PublicStats
  nodes : List PublicNode
  routes : List PublicRoute
  recentPulses : List LiveRoutePulse
  recentActivity : List LiveActivity
  deriving DecidableEq

/-- `PublicBootstrapResponse` in the browser, without map settings, health and clusters. -/
structure Bootstrap where
  serverTime : Int
  stats : PublicStats
  latestSeq : Int
  recentActivity : List LiveActivity
  deriving DecidableEq

structure AppState where
  nodes : List PublicNode
  routes : List PublicRoute
  activity : List LiveActivity
  pulses : List LiveRoutePulse
  observerBursts : List PublicObserverBurst
  routeTraces : List RouteTraceHit
  stats : Option PublicStats
  serverTime : Int
  latestSeq : Int
  seenSeqs : List Int
  routeIndex : String → Option Nat
  routeMaxPacketCount : Int
  routeTopologyRevision : Nat
  routeTrafficRevision : Nat
  routeVisualRevision : Nat

/-- `emptyState`. -/
def emptyState : AppState :=
  { nodes := [], routes := [], activity := [], pulses := [], observerBursts := [], routeTraces := []
    stats := none, serverTime := 0, latestSeq := 0, seenSeqs := [], routeIndex := fun _ => none
    routeMaxPacketCount := 1, routeTopologyRevision := 0, routeTrafficRevision := 0
    routeVisualRevision := 0 }

/-! ## Lists and texts -/

/-- `slice(-n)`. -/
def takeLast {α : Type} (n : Nat) (items : List α) : List α := items.drop (items.length - n)

/-- The place of a character in the order of UTF-16 code units: the characters that take
a pair of surrogates come before those from U+E000 on. -/
def utf16Rank (c : Char) : Nat :=
  if 0xE000 ≤ c.toNat ∧ c.toNat ≤ 0xFFFF then c.toNat + 0x110000 else c.toNat

def utf16Key (text : String) : List Nat := text.toList.map utf16Rank

/-- `[...new Set(names)].sort()`. -/
def sortedNames (names : List String) : List String :=
  names.dedup.insertionSort fun a b => utf16Key a ≤ utf16Key b

/-! ## Routes -/

/-- `frequencyBucket`: `Math.round(4 * x)` counts the odd eighths up to `x`, and the
quotient of the logarithms reaches `(2 * k + 1) / 8` when the powers are in order. -/
def frequencyBucket (count maxCount : Int) : Int :=
  if maxCount ≤ 1 then 0
  else (List.range 4).countP fun k => (maxCount + 2) ^ (2 * k + 1) ≤ (count + 1) ^ 8

/-- `maxRoutePacketCount`. -/
def maxRoutePacketCount (routes : List PublicRoute) : Int :=
  routes.foldl (fun m route => max m route.packetCount) 1

/-- `normalizeRouteBuckets`. -/
def normalizeRouteBuckets (routes : List PublicRoute) : List PublicRoute :=
  let maxCount := maxRoutePacketCount routes
  routes.map fun route =>
    { route with
      frequencyBucket := frequencyBucket route.packetCount maxCount
      payloadTypeNames := sortedNames route.payloadTypeNames }

/-- `indexRoutes`. -/
def indexRoutes (routes : List PublicRoute) : String → Option Nat :=
  Keyed.placesFrom PublicRoute.id 0 (fun _ => none) routes

/-- `mergeCurrentEntities`, for entities with the given identifiers. -/
def mergeCurrentEntities {α : Type} (id : α → String) (current snapshot : List α) : List α :=
  Keyed.firstOfEach id [] (current ++ snapshot)

/-- An entry of the map `touched`. -/
structure TouchedRoute where
  segment : PublicRouteSegment
  hits : Int
  lastHeard : Int
  payloadTypeNames : List String
  deriving DecidableEq

def TouchedRoute.routeID (touched : TouchedRoute) : String := touched.segment.routeID

/-- One more segment of a pulse on a touched route. -/
def TouchedRoute.hit (pulse : LiveRoutePulse) (existing : TouchedRoute) : TouchedRoute :=
  { existing with
    hits := existing.hits + 1
    lastHeard := max existing.lastHeard pulse.heardAt
    payloadTypeNames := existing.payloadTypeNames ++ [pulse.payloadTypeName] }

/-- The inner loop of `upsertPulseRoutesBatch` over the segments of the pulses. -/
def touchRoute (pulse : LiveRoutePulse) (touched : List TouchedRoute)
    (segment : PublicRouteSegment) : List TouchedRoute :=
  if touched.any fun existing => existing.routeID = segment.routeID then
    touched.map fun existing =>
      if existing.routeID = segment.routeID then existing.hit pulse else existing
  else
    touched ++ [{ segment, hits := 1, lastHeard := pulse.heardAt
                  payloadTypeNames := [pulse.payloadTypeName] }]

def touchedRoutes (pulses : List LiveRoutePulse) : List TouchedRoute :=
  pulses.foldl (fun touched pulse => pulse.segments.foldl (touchRoute pulse) touched) []

structure RouteBatchUpdate where
  routes : List PublicRoute
  routeIndex : String → Option Nat
  maxPacketCount : Int
  topologyChanged : Bool
  visualChanged : Bool

def routeVisualFreshMs : Int := 15 * 60000

/-- The route of the list that a touched route stands for, and its position. -/
def knownRoute (routes : List PublicRoute) (routeIndex : String → Option Nat)
    (update : TouchedRoute) : Option (Nat × PublicRoute) :=
  (routeIndex update.routeID).bind fun index => routes[index]?.map fun route => (index, route)

/-- A route with the hits of a batch. -/
def TouchedRoute.addTo (maxBefore : Int) (update : TouchedRoute) (route : PublicRoute) :
    PublicRoute :=
  let packetCount := route.packetCount + update.hits
  { route with
    packetCount
    lastHeard := max route.lastHeard update.lastHeard
    frequencyBucket := frequencyBucket packetCount maxBefore
    payloadTypeNames := sortedNames (route.payloadTypeNames ++ update.payloadTypeNames) }

/-- The first loop over `touched`, on a route of the list. -/
def updateKnownRoute (routes : List PublicRoute) (routeIndex : String → Option Nat)
    (maxBefore : Int) (batch : RouteBatchUpdate) (update : TouchedRoute) : RouteBatchUpdate :=
  match knownRoute routes routeIndex update with
  | none => batch
  | some (index, route) =>
    let next := update.addTo maxBefore route
    { batch with
      routes := batch.routes.set index next
      maxPacketCount := max batch.maxPacketCount next.packetCount
      visualChanged := batch.visualChanged ||
        (next.frequencyBucket ≠ route.frequencyBucket ||
          route.lastHeard < update.lastHeard - routeVisualFreshMs) }

/-- The route that a touched route makes. -/
def TouchedRoute.newRoute (maxBefore : Int) (update : TouchedRoute) : PublicRoute :=
  { id := update.segment.routeID
    source := update.segment.source
    target := update.segment.target
    distanceKM := update.segment.distanceKM
    packetCount := update.hits
    lastHeard := update.lastHeard
    frequencyBucket := frequencyBucket update.hits (max maxBefore update.hits)
    payloadTypeNames := sortedNames update.payloadTypeNames }

/-- The second loop over `touched`, on the routes that are left. -/
def addNewRoute (maxBefore : Int) (batch : RouteBatchUpdate) (update : TouchedRoute) :
    RouteBatchUpdate :=
  { batch with
    routes := batch.routes ++ [update.newRoute maxBefore]
    routeIndex := Function.update batch.routeIndex update.routeID (some batch.routes.length)
    maxPacketCount := max batch.maxPacketCount update.hits
    topologyChanged := true
    visualChanged := true }

/-- `upsertPulseRoutesBatch`; the growth at which the buckets are balanced again is a
quarter. -/
def upsertPulseRoutesBatch (routes : List PublicRoute) (routeIndex : String → Option Nat)
    (maxPacketCount : Int) (pulses : List LiveRoutePulse) : RouteBatchUpdate :=
  let touched := touchedRoutes pulses
  if touched = [] then
    { routes, routeIndex, maxPacketCount, topologyChanged := false, visualChanged := false }
  else
    let maxBefore := max 1 maxPacketCount
    let start : RouteBatchUpdate :=
      { routes, routeIndex, maxPacketCount := maxBefore
        topologyChanged := false, visualChanged := false }
    let known := touched.foldl (updateKnownRoute routes routeIndex maxBefore) start
    let left := touched.filter fun update => (knownRoute routes routeIndex update).isNone
    let batch := left.foldl (addNewRoute maxBefore) known
    let rebalance := 5 * maxBefore < 4 * batch.maxPacketCount
    { batch with
      routes := if rebalance then normalizeRouteBuckets batch.routes else batch.routes
      visualChanged := batch.visualChanged || rebalance }

/-! ## Traces and bursts -/

def routeTraceWindowMs : Int := 15 * 60000

def observerBurstWindowMs : Int := 15 * 60000

/-- `pruneRouteTraces`. -/
def pruneRouteTraces (routeTraces : List RouteTraceHit) (now : Int) : List RouteTraceHit :=
  routeTraces.filter fun trace => now - routeTraceWindowMs ≤ trace.heardAt

/-- `addRouteTraceHits`. -/
def addRouteTraceHits (routeTraces : List RouteTraceHit) (pulse : LiveRoutePulse) (now : Int) :
    List RouteTraceHit :=
  let hits := pulse.segments.map fun segment =>
    { routeID := segment.routeID, heardAt := pulse.heardAt
      payloadTypeName := pulse.payloadTypeName, source := segment.source
      target := segment.target, distanceKM := segment.distanceKM }
  takeLast 2000 (pruneRouteTraces (routeTraces ++ hits) now)

/-- `pruneObserverBursts`. -/
def pruneObserverBursts (observerBursts : List PublicObserverBurst) (now : Int) :
    List PublicObserverBurst :=
  observerBursts.filter fun burst => now - observerBurstWindowMs ≤ burst.heardAt

/-- `addObserverBurst`. -/
def addObserverBurst (observerBursts : List PublicObserverBurst) (activity : LiveActivity)
    (now : Int) : List PublicObserverBurst :=
  match activity.observerLocation with
  | none => pruneObserverBursts observerBursts now
  | some location =>
    if activity.animationState ≠ "observer" then pruneObserverBursts observerBursts now
    else
      let burst : PublicObserverBurst :=
        { id := "observer-" ++ activity.id
          payloadTypeName := activity.payloadTypeName
          heardAt := activity.heardAt
          receivedAt := activity.receivedAt
          displayAt := activity.displayAt
          seq := activity.seq
          location
          messageSender := activity.messageSender
          messageText := activity.messageText
          messageAnchor := activity.messageAnchor }
      takeLast 2000 (pruneObserverBursts (observerBursts ++ [burst]) now)

/-- `isPacketActivity`. -/
def isPacketActivity (item : LiveActivity) : Bool := item.kind = "packet" || item.kind = "route"

/-! ## Sequences and times -/

/-- `withLatestSeq`. -/
def withLatestSeq (state : AppState) (seq : Option Int) : AppState :=
  match seq with
  | none => state
  | some seq =>
    if seq = 0 ∨ seq ≤ state.latestSeq then state
    else
      { state with
        latestSeq := seq
        stats := state.stats.map fun stats => { stats with latestSeq := seq } }

/-- `rememberSeq`. -/
def rememberSeq (state : AppState) (seq : Option Int) : AppState :=
  match seq with
  | none => state
  | some seq =>
    if seq ≤ 0 ∨ seq ∈ state.seenSeqs then state
    else { state with seenSeqs := takeLast 1000 (state.seenSeqs ++ [seq]) }

/-- `message.seq && state.seenSeqs.includes(message.seq)`. -/
def AppState.hasSeen (state : AppState) (message : LiveMessage) : Bool :=
  match message.seq with
  | none => false
  | some seq => seq ≠ 0 && seq ∈ state.seenSeqs

/-- The time of receipt in `withEnvelopeTiming`. -/
def LiveMessage.timing (message : LiveMessage) (own : Option Int) : Option Int :=
  (message.receivedAt <|> message.serverTime) <|> own

/-- `withEnvelopeTiming` of an activity. -/
def LiveActivity.withEnvelopeTiming (data : LiveActivity) (message : LiveMessage) :
    LiveActivity :=
  let receivedAt := message.timing data.receivedAt
  { data with
    receivedAt
    displayAt := receivedAt <|> data.displayAt
    seq := message.seq.getD data.seq }

/-- `withEnvelopeTiming` of a pulse. -/
def LiveRoutePulse.withEnvelopeTiming (data : LiveRoutePulse) (message : LiveMessage) :
    LiveRoutePulse :=
  let receivedAt := message.timing data.receivedAt
  { data with
    receivedAt
    displayAt := receivedAt <|> data.displayAt
    seq := message.seq.getD data.seq }

/-! ## Envelopes -/

/-- `mark` in `applyNonRouteEnvelope`. -/
def AppState.mark (next : AppState) (message : LiveMessage) : AppState :=
  rememberSeq (withLatestSeq next (message.latestSeq <|> message.seq <|> some next.latestSeq))
    message.seq

/-- `applyNonRouteEnvelope`. -/
def applyNonRouteEnvelope (state : AppState) (message : LiveMessage) (animate : Bool) :
    AppState :=
  if message.type ≠ .event then
    withLatestSeq state (message.latestSeq <|> message.seq <|> some state.latestSeq)
  else if state.hasSeen message then withLatestSeq state (message.latestSeq <|> message.seq)
  else
    match message.data with
    | some (.nodeUpdate node) =>
      let nodes := node :: state.nodes.filter fun item => item.id ≠ node.id
      let stats := state.stats.map fun stats => { stats with activeNodes := nodes.length }
      { state with nodes, stats }.mark message
    | some (.activity data) =>
      let activity := data.withEnvelopeTiming message
      if state.activity.any fun item => item.id = activity.id then state.mark message
      else
        let serverTime := max state.serverTime (message.serverTime.getD activity.heardAt)
        let stats := state.stats.map fun stats =>
          { stats with
            packets := if isPacketActivity activity then stats.packets + 1 else stats.packets
            serverTime := max stats.serverTime serverTime }
        { state with
          activity := (activity :: state.activity).take 240
          observerBursts :=
            if animate then addObserverBurst state.observerBursts activity serverTime
            else state.observerBursts
          stats
          serverTime }.mark message
    | _ => state

/-- The local variables of the loop in `applyPublicEnvelopes`. -/
structure EnvelopeLoop where
  next : AppState
  pulseIDs : List String
  acceptedPulses : List LiveRoutePulse

/-- A `routePulse` envelope in the loop of `applyPublicEnvelopes`. -/
def EnvelopeLoop.applyPulse (loop : EnvelopeLoop) (message : LiveMessage) (animate : Bool)
    (data : LiveRoutePulse) : EnvelopeLoop :=
  if loop.next.hasSeen message then
    { loop with next := withLatestSeq loop.next (message.latestSeq <|> message.seq) }
  else
    let pulse := data.withEnvelopeTiming message
    if pulse.id ∈ loop.pulseIDs then
      { loop with
        next := rememberSeq (withLatestSeq loop.next (message.latestSeq <|> message.seq))
          message.seq }
    else
      let serverTime := max loop.next.serverTime (message.serverTime.getD pulse.heardAt)
      let next : AppState :=
        { loop.next with
          pulses := if animate then (pulse :: loop.next.pulses).take 2000 else loop.next.pulses
          routeTraces := addRouteTraceHits loop.next.routeTraces pulse serverTime
          serverTime }
      { next := next.mark message
        pulseIDs := pulse.id :: loop.pulseIDs
        acceptedPulses := loop.acceptedPulses ++ [pulse] }

/-- One round of the loop of `applyPublicEnvelopes`. -/
def EnvelopeLoop.step (animate : Bool) (loop : EnvelopeLoop) (message : LiveMessage) :
    EnvelopeLoop :=
  match message.type, message.data with
  | .event, some (.routePulse data) => loop.applyPulse message animate data
  | _, _ => { loop with next := applyNonRouteEnvelope loop.next message animate }

/-- What `applyPublicEnvelopes` does with the accepted pulses. -/
def AppState.upsertRoutes (next : AppState) (acceptedPulses : List LiveRoutePulse) : AppState :=
  let routeUpdate := upsertPulseRoutesBatch next.routes next.routeIndex next.routeMaxPacketCount
    acceptedPulses
  let changed := if routeUpdate.topologyChanged then 1 else 0
  { next with
    routes := routeUpdate.routes
    routeIndex := routeUpdate.routeIndex
    routeMaxPacketCount := routeUpdate.maxPacketCount
    routeTopologyRevision := next.routeTopologyRevision + changed
    routeTrafficRevision := next.routeTrafficRevision + 1
    routeVisualRevision := next.routeVisualRevision + changed
    stats := next.stats.map fun stats =>
      { stats with
        activeRoutes := routeUpdate.routes.length
        serverTime := max stats.serverTime next.serverTime } }

/-- `applyPublicEnvelopes`. -/
def applyPublicEnvelopes (state : AppState) (messages : List LiveMessage) (animate : Bool) :
    AppState :=
  let loop := messages.foldl (EnvelopeLoop.step animate)
    { next := state, pulseIDs := state.pulses.map fun pulse => pulse.id, acceptedPulses := [] }
  if loop.acceptedPulses = [] then loop.next else loop.next.upsertRoutes loop.acceptedPulses

/-! ## Snapshots -/

/-- `initialAppState`. -/
def initialAppState (state : LiveState) : AppState :=
  let routes := normalizeRouteBuckets state.routes
  { nodes := state.nodes
    routes
    activity := state.recentActivity
    pulses := []
    observerBursts := []
    routeTraces := state.recentPulses.foldl
      (fun traces pulse => addRouteTraceHits traces pulse state.serverTime) []
    stats := state.stats
    serverTime := state.serverTime
    latestSeq := (state.stats.map PublicStats.latestSeq).getD 0
    seenSeqs := []
    routeIndex := indexRoutes routes
    routeMaxPacketCount := maxRoutePacketCount routes
    routeTopologyRevision := 1
    routeTrafficRevision := 1
    routeVisualRevision := 1 }

/-- `bootstrapToLiveState`. -/
def bootstrapToLiveState (bootstrap : Bootstrap) : LiveState :=
  { serverTime := bootstrap.serverTime
    stats := some { bootstrap.stats with latestSeq := bootstrap.latestSeq }
    nodes := []
    routes := []
    recentPulses := []
    recentActivity := bootstrap.recentActivity }

/-- `hydrateSnapshotTopology`. -/
def hydrateSnapshotTopology (current : AppState) (snapshot : LiveState) : AppState :=
  let routes := mergeCurrentEntities PublicRoute.id current.routes
    (normalizeRouteBuckets snapshot.routes)
  let topologyChanged := decide (routes.length ≠ current.routes.length)
  let changed := if topologyChanged then 1 else 0
  { current with
    nodes := mergeCurrentEntities PublicNode.id current.nodes snapshot.nodes
    routes
    routeIndex := if topologyChanged then indexRoutes routes else current.routeIndex
    routeMaxPacketCount := max current.routeMaxPacketCount (maxRoutePacketCount routes)
    routeTopologyRevision := current.routeTopologyRevision + changed
    routeVisualRevision := current.routeVisualRevision + changed
    stats := current.stats <|> snapshot.stats
    serverTime := max current.serverTime snapshot.serverTime
    latestSeq := max current.latestSeq ((snapshot.stats.map PublicStats.latestSeq).getD 0) }

end CartoLive.Web
