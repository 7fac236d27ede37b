import CartoLive.Live.Filter

/-!
# Building the public state

`BuildPublicLiveState` of `public.go` and the functions it is made of: public
nodes, routes aggregated from edges, pulses, activity with observer locations,
and the durable event made from a public record.

Go maps appear as the lists of their entries. Where the source iterates over a
map and then sorts with ties left open (`BuildPublicRoutes`), the model keeps the
entries in the order of their first insertion.
-/

namespace CartoLive.Live

open CartoLive.Go

/-! ## Path hashes -/

/-- `map[string]string` with the latest entry of a key in front. -/
abbrev PathHash3Index := List (String × String)

def PathHash3Index.get (index : PathHash3Index) (key : String) : String :=
  ((index.find? fun entry => entry.1 = key).map Prod.snd).getD ""

/-- The entries that a public key adds to `BuildPublicPathHash3Index` under an
identifier. -/
def pathHash3Entries (id publicKey : String) : PathHash3Index :=
  let hash := pathHash3FromPublicKey publicKey
  if hash = "" then [] else [(id, hash), (publicNodeID publicKey, hash)]

/-- `BuildPublicPathHash3Index`. -/
def buildPublicPathHash3Index (nodes : List Node) (observers : List Observer) : PathHash3Index :=
  (nodes.flatMap (fun node => pathHash3Entries node.nodeID node.publicKey) ++
    observers.flatMap fun observer =>
      pathHash3Entries observer.publicKey observer.publicKey).reverse

/-- `publicEndpointPathHash3`. -/
def publicEndpointPathHash3 (endpoint : EdgeEndpoint) (index : PathHash3Index) : String :=
  if publicPathHash3 endpoint.pathHash3 ≠ "" then publicPathHash3 endpoint.pathHash3
  else if publicPathHash3 (index.get endpoint.nodeID) ≠ "" then
    publicPathHash3 (index.get endpoint.nodeID)
  else if publicPathHash3 (index.get (publicNodeID endpoint.nodeID)) ≠ "" then
    publicPathHash3 (index.get (publicNodeID endpoint.nodeID))
  else pathHash3FromPublicKey endpoint.nodeID

/-- `publicEndpoint`. -/
def publicEndpoint (endpoint : EdgeEndpoint) (index : PathHash3Index) : PublicRouteEndpoint :=
  { nodeID := publicNodeID endpoint.nodeID
    label := displayLabel endpoint.name "unknown"
    lat := endpoint.lat
    lng := endpoint.lng
    pathHash3 := publicEndpointPathHash3 endpoint index }

section Env

variable [LiveEnv]

/-! ## Nodes -/

/-- `PublicNodeFromNode`. -/
def publicNodeFromNode (node : Node) : Option PublicNode :=
  if !(publicNodeMapInclusion node (newPublicIATAFilter [])).mappable then none
  else
    match node.latitude, node.longitude with
    | some latitude, some longitude =>
      some
        { seq := 0
          id := publicNodeID node.nodeID
          label := displayLabel node.name node.role
          role := normalizeRole node.role
          isObserver := false
          latitude, longitude
          lastSeen := node.lastSeen
          firstSeen := node.firstSeen
          iatasHeardIn := node.iatasHeardIn
          regionsHeardIn := node.iatasHeardIn
          activityCount := node.observationCount }
    | _, _ => none

/-- `PublicNodeFromObserver`. -/
def publicNodeFromObserver (observer : Observer) : Option PublicNode :=
  if !(publicObserverFallbackInclusion observer (newPublicIATAFilter [])).mappable then none
  else
    let iata := upperTrim observer.iata
    let iatas := if iata = "" then [] else [iata]
    match observer.latitude, observer.longitude with
    | some latitude, some longitude =>
      some
        { seq := 0
          id := publicObserverNodeID observer
          label := publicObserverLabel observer.name observer.iata
          role := "unknown"
          isObserver := true
          latitude, longitude
          lastSeen := observer.lastSeen
          firstSeen := observer.lastSeen
          iatasHeardIn := iatas
          regionsHeardIn := iatas
          activityCount := observer.packetCount }
    | _, _ => none

/-- The nodes of `BuildPublicLiveState`: the stored nodes, marked where an
observer has their key, and the observers that no rendered node stands for. -/
def buildPublicNodes (nodes : List Node) (observers : List Observer) : List PublicNode :=
  let observerPublicKeys := observers.map fun observer => toUpper observer.publicKey
  let rendered := nodes.filterMap fun node =>
    (publicNodeFromNode node).map fun item =>
      { item with isObserver := decide (toUpper node.publicKey ∈ observerPublicKeys) }
  let renderedPublicKeys := (nodes.filter fun node => (publicNodeFromNode node).isSome).map
    fun node => toUpper node.publicKey
  rendered ++ (observers.filter fun observer =>
    toUpper observer.publicKey ∉ renderedPublicKeys).filterMap publicNodeFromObserver

/-! ## Messages -/

/-- `messageAnchorFromEndpointKind`. -/
def messageAnchorFromEndpointKind (endpoint : PublicRouteEndpoint) (kind : String) :
    Option PublicMessageAnchor :=
  if !validPublicCoords endpoint.lat endpoint.lng then none
  else
    some
      { kind
        nodeID := if kind = "source" then endpoint.nodeID else ""
        label := endpoint.label
        lat := endpoint.lat
        lng := endpoint.lng }

/-- `messageAnchorFromEdge`. -/
def messageAnchorFromEdge (edge : EdgeEvent) (segments : List PublicRouteSegment) :
    Option PublicMessageAnchor :=
  match edge.messageAnchor with
  | some anchor =>
    if validEndpoint anchor.endpoint then
      let kind := toLower (trimSpace anchor.kind)
      messageAnchorFromEndpointKind (publicEndpoint anchor.endpoint [])
        (if kind = "observer" then kind else "source")
    else (segments.head?.map PublicRouteSegment.source).bind
      (messageAnchorFromEndpointKind · "source")
  | none => (segments.head?.map PublicRouteSegment.source).bind
      (messageAnchorFromEndpointKind · "source")

/-- `messageAnchorFromObserver`. -/
def messageAnchorFromObserver (location : PublicObserverLocation) : Option PublicMessageAnchor :=
  if !validPublicCoords location.lat location.lng then none
  else some { kind := "observer", nodeID := "", label := location.label
              lat := location.lat, lng := location.lng }

/-! ## Edges: pulses, routes, activity -/

/-- The segments of an edge that have two valid endpoints. -/
def mappableSegments (edge : EdgeEvent) : List EdgeSegment :=
  edge.segments.filter fun segment => validEndpoint segment.source && validEndpoint segment.target

def publicSegment (index : PathHash3Index) (segment : EdgeSegment) : PublicRouteSegment :=
  { routeID := publicRouteID segment.source.nodeID segment.target.nodeID
    source := publicEndpoint segment.source index
    target := publicEndpoint segment.target index
    distanceKM := segment.distanceKM }

/-- `PublicRoutePulseFromEdge`. -/
def publicRoutePulseFromEdge (edge : EdgeEvent) (index : PathHash3Index) :
    Option PublicRoutePulse :=
  let segments := (mappableSegments edge).map (publicSegment index)
  if segments = [] then none
  else
    let messageText := publicMessageText edge.messageText
    some
      { seq := 0
        id := "pulse-" ++ toString edge.id
        iata := toUpper edge.iata
        region := toUpper edge.iata
        payloadTypeName := edge.payloadTypeName
        messageSender := publicMessageSender edge.messageSender
        messageText
        messageAnchor := if messageText = "" then none else messageAnchorFromEdge edge segments
        heardAt := edge.heardAt
        segments }

def publicAnimationRoute : String := "route"
def publicAnimationObserver : String := "observer"
def publicAnimationUnmapped : String := "unmapped"

def publicBucketRouted : String := "routed"
def publicBucketObserverOnly : String := "observer_only"
def publicBucketUnresolved : String := "unresolved_path"
def publicBucketMissingLoc : String := "missing_location"
def publicBucketRFGated : String := "rf_gated"
def publicBucketDistanceGated : String := "distance_gated"
def publicBucketNotMapSafe : String := "not_map_safe"

/-- `PublicActivityFromEdge`. -/
def publicActivityFromEdge (edge : EdgeEvent) : Option PublicActivity :=
  (publicRoutePulseFromEdge edge []).map fun pulse =>
    { seq := 0
      id := "route-activity-" ++ toString edge.id
      kind := "packet"
      payloadTypeName := edge.payloadTypeName
      routeTypeName := ""
      iata := toUpper edge.iata
      region := toUpper edge.iata
      heardAt := edge.heardAt
      hopCount := 0
      hasRoute := true
      animationState := publicAnimationRoute
      resolutionBucket := publicBucketRouted
      observerLocation := none
      routeIDs := uniqueSorted (pulse.segments.map PublicRouteSegment.routeID)
      endpointLabels := uniqueConsecutive
        ((pulse.segments.head?.map fun segment => segment.source.label).toList ++
          pulse.segments.map fun segment => segment.target.label)
      messageSender := publicMessageSender edge.messageSender
      messageText := publicMessageText edge.messageText
      messageAnchor := pulse.messageAnchor }

/-- An entry of the aggregation in `BuildPublicRoutes`: the route so far and the
payload types seen on it. -/
structure RouteAggregate where
  route : PublicRoute
  payloadTypes : List String
  deriving DecidableEq

/-- One more packet of an edge on a route. -/
def RouteAggregate.count (item : RouteAggregate) (edge : EdgeEvent) : RouteAggregate :=
  { route := { item.route with
      packetCount := item.route.packetCount + 1
      lastHeard := max item.route.lastHeard edge.heardAt }
    payloadTypes := item.payloadTypes ++ [edge.payloadTypeName] }

def RouteAggregate.start (segment : PublicRouteSegment) : RouteAggregate :=
  { route :=
      { id := segment.routeID, source := segment.source, target := segment.target
        distanceKM := segment.distanceKM, packetCount := 0, lastHeard := 0, frequencyBucket := 0
        payloadTypeNames := [] }
    payloadTypes := [] }

/-- The inner loop of `BuildPublicRoutes` on one mappable segment. -/
def addRouteSegment (edge : EdgeEvent) (byID : List RouteAggregate)
    (segment : PublicRouteSegment) : List RouteAggregate :=
  if byID.any fun item => item.route.id = segment.routeID then
    byID.map fun item => if item.route.id = segment.routeID then item.count edge else item
  else byID ++ [(RouteAggregate.start segment).count edge]

/-- The aggregation of `BuildPublicRoutes`. -/
def aggregateRoutes (edges : List EdgeEvent) (index : PathHash3Index) : List RouteAggregate :=
  edges.foldl (fun byID edge =>
    ((mappableSegments edge).map (publicSegment index)).foldl (addRouteSegment edge) byID) []

/-- The order in which `BuildPublicRoutes` returns routes. -/
def routeBefore (a b : PublicRoute) : Bool :=
  b.packetCount < a.packetCount || (a.packetCount = b.packetCount && b.lastHeard ≤ a.lastHeard)

/-- The routes of `BuildPublicRoutes`. -/
def buildPublicRoutes (edges : List EdgeEvent) (index : PathHash3Index) : List PublicRoute :=
  let byID := aggregateRoutes edges index
  let maxCount := byID.foldl (fun m item => max m item.route.packetCount) 1
  (byID.map fun item =>
    { item.route with
      frequencyBucket := frequencyBucket item.route.packetCount maxCount
      payloadTypeNames := uniqueSorted item.payloadTypes }).insertionSort
    fun a b => routeBefore a b = true

/-- The route identifiers that `BuildPublicRoutes` collects for a packet. -/
def routesByPacket (edges : List EdgeEvent) (packetHash : String) : List String :=
  uniqueSorted ((edges.filter fun edge => edge.packetHash = packetHash).flatMap fun edge =>
    (mappableSegments edge).map fun segment =>
      publicRouteID segment.source.nodeID segment.target.nodeID)

/-- `publicRoutesWithRecentFallback`. -/
def publicRoutesWithRecentFallback (summaries recent : List PublicRoute) : List PublicRoute :=
  if summaries = [] then recent
  else recent.foldl (fun out route =>
    if out.any fun r => r.id = route.id then out else out ++ [route]) summaries

/-- `BuildPublicRoutePulses`. -/
def buildPublicRoutePulses (edges : List EdgeEvent) (limit : Nat) (minHeardAt : Int)
    (index : PathHash3Index) : List PublicRoutePulse :=
  let limit := if limit = 0 then 80 else limit
  ((edges.filter fun edge => minHeardAt ≤ edge.heardAt).filterMap fun edge =>
    publicRoutePulseFromEdge edge index).take limit

/-! ## Observer locations -/

/-- `PublicObserverLocationIndex`, by `observerLocationKey`. -/
abbrev PublicObserverLocationIndex := List (String × PublicObserverLocation)

def PublicObserverLocationIndex.get (index : PublicObserverLocationIndex) (key : String) :
    Option PublicObserverLocation :=
  (index.find? fun entry => entry.1 = key).map Prod.snd

/-- An entry for a key that has none yet. -/
def PublicObserverLocationIndex.add (index : PublicObserverLocationIndex) (key : String)
    (location : PublicObserverLocation) : PublicObserverLocationIndex :=
  if (index.get key).isSome then index else index ++ [(key, location)]

/-- The entries that a node adds to `BuildPublicObserverLocationIndex`. -/
def addNodeLocations (index : PublicObserverLocationIndex) (node : Node) :
    PublicObserverLocationIndex :=
  match node.latitude, node.longitude with
  | some lat, some lng =>
    if !validPublicCoords lat lng then index
    else
      let location : PublicObserverLocation :=
        { label := displayLabel node.name node.role, iata := "", region := "", lat, lng }
      node.iatasHeardIn.foldl (fun index iata =>
          index.add (observerLocationKey node.publicKey iata)
            { location with iata := toUpper iata, region := toUpper iata })
        (index.add (observerLocationKey node.publicKey "") location)
  | _, _ => index

/-- The entry of an observer; a later observer replaces an earlier one. -/
def observerLocationEntry (observer : Observer) : Option (String × PublicObserverLocation) :=
  match observer.latitude, observer.longitude with
  | some lat, some lng =>
    if !validPublicCoords lat lng then none
    else
      some (observerLocationKey observer.publicKey observer.iata,
        { label := publicObserverLabel observer.name observer.iata
          iata := toUpper observer.iata, region := toUpper observer.iata, lat, lng })
  | _, _ => none

/-- `BuildPublicObserverLocationIndex`. -/
def buildPublicObserverLocationIndex (nodes : List Node) (observers : List Observer) :
    PublicObserverLocationIndex :=
  nodes.foldl addNodeLocations (observers.filterMap observerLocationEntry).reverse

/-- `LocationForPublicKey`. -/
def PublicObserverLocationIndex.locationForPublicKey (index : PublicObserverLocationIndex)
    (publicKey iata : String) : Option PublicObserverLocation :=
  match index.get (observerLocationKey publicKey iata) with
  | some location => some location
  | none => (index.get (observerLocationKey publicKey "")).map fun location =>
    if location.iata = "" then
      { location with iata := toUpper iata, region := toUpper iata }
    else location

/-! ## Activity -/

/-- `PublicResolutionBucket`, with the status names of package `resolve`. -/
def publicResolutionBucket (packet : PacketObservation) (hasRoute : Bool) : String :=
  let status := packet.resolutionStatus
  if hasRoute ∨ status = "high" then publicBucketRouted
  else if packet.invalidForMap ∨ status = "invalid_for_map" then publicBucketNotMapSafe
  else if status = "no_path" then publicBucketObserverOnly
  else if status = "missing_coordinates" then publicBucketMissingLoc
  else if status = "missing_rf_evidence" then publicBucketRFGated
  else if status = "rejected_distance_gate" then publicBucketDistanceGated
  else publicBucketUnresolved

/-- `PublicActivityFromPacket`. -/
def publicActivityFromPacket (packet : PacketObservation) (routeIDs : List String)
    (observerLocation : Option PublicObserverLocation) : PublicActivity :=
  let ids := uniqueSorted routeIDs
  let hasRoute := !ids.isEmpty
  let messageText := publicMessageText packet.messageText
  { seq := 0
    id := "activity-" ++ toString packet.id
    kind := "packet"
    payloadTypeName := packet.payloadTypeName
    routeTypeName := packet.routeTypeName
    iata := packet.iata
    region := packet.iata
    heardAt := packet.heardAt
    hopCount := packet.hopCount
    hasRoute
    animationState :=
      if hasRoute then publicAnimationRoute
      else if observerLocation.isSome then publicAnimationObserver
      else publicAnimationUnmapped
    resolutionBucket := publicResolutionBucket packet hasRoute
    observerLocation := if hasRoute then none else observerLocation
    routeIDs := ids
    endpointLabels := []
    messageSender := publicMessageSender packet.messageSender
    messageText
    messageAnchor :=
      if hasRoute ∨ messageText = "" then none
      else observerLocation.bind messageAnchorFromObserver }

/-- `out[iata][bucket]++` on the nested counters. -/
def bumpNested (counters : List (String × Counter)) (iata bucket : String) :
    List (String × Counter) :=
  match counters with
  | [] => [(iata, [(bucket, 1)])]
  | (k, c) :: rest =>
    if k = iata then (k, c.bump bucket 1) :: rest else (k, c) :: bumpNested rest iata bucket

/-- `PublicResolutionCounters`. -/
def publicResolutionCounters (activity : List PublicActivity) : List (String × Counter) :=
  activity.foldl (fun out item =>
    let iata := if upperTrim item.iata = "" then "UNKNOWN" else upperTrim item.iata
    let bucket := trimSpace item.resolutionBucket
    bumpNested out iata (if bucket = "" then publicBucketUnresolved else bucket)) []

/-! ## The public state -/

/-- `BuildPublicLiveState`. -/
def buildPublicLiveState (state : State) (stats : PublicStats) (now : Int) : PublicLiveState :=
  let index := buildPublicPathHash3Index state.nodes state.observers
  let routes := publicRoutesWithRecentFallback state.routes
    (buildPublicRoutes state.recentEdgeEvents index)
  let observerLocations := buildPublicObserverLocationIndex state.nodes state.observers
  let activity := state.recentPackets.map fun packet =>
    publicActivityFromPacket packet (routesByPacket state.recentEdgeEvents packet.packetHash)
      (observerLocations.locationForPublicKey packet.observerPublicKey packet.iata)
  let nodes := buildPublicNodes state.nodes state.observers
  { serverTime := state.serverTime
    stats := { stats with
      activeNodes := nodes.length
      activeRoutes := routes.length
      resolutionBuckets := publicResolutionCounters activity }
    nodes
    routes
    recentPulses :=
      buildPublicRoutePulses state.recentEdgeEvents 80 (state.serverTime - 20000) index
    recentActivity := activity
    updatedAt := now }

end Env

/-! ## Durable events -/

/-- `PublicEventFromData`. -/
def publicEventFromData (eventType : String) (data : PublicData) (now : Int) : PublicEvent :=
  let event : PublicEvent :=
    { dedupeKey := "", seq := 0, type := trimSpace eventType, occurredAt := 0, receivedAt := 0
      iata := "", region := "", payloadTypeName := "", message := false, routeIDs := []
      nodeIDs := [], data }
  let event := match data with
    | .node item =>
      { event with
        occurredAt := item.lastSeen
        nodeIDs := [item.id]
        region := upperTrim ((item.regionsHeardIn ++ item.iatasHeardIn).head?.getD "") }
    | .activity item =>
      { event with
        occurredAt := item.heardAt
        region := upperTrim (firstNonEmpty [item.region, item.iata])
        iata := upperTrim item.iata
        payloadTypeName := upperTrim item.payloadTypeName
        message := trimSpace item.messageText ≠ ""
        routeIDs := item.routeIDs }
    | .pulse item =>
      { event with
        occurredAt := item.heardAt
        region := upperTrim (firstNonEmpty [item.region, item.iata])
        iata := upperTrim item.iata
        payloadTypeName := upperTrim item.payloadTypeName
        message := trimSpace item.messageText ≠ ""
        routeIDs := item.segments.map PublicRouteSegment.routeID
        nodeIDs := item.segments.flatMap fun (segment : PublicRouteSegment) =>
          [segment.source.nodeID, segment.target.nodeID] }
  { event with occurredAt := if event.occurredAt ≤ 0 then now else event.occurredAt }

end CartoLive.Live

/-!
## The location of an observer on the live path

`PublicObserverLocationFromNode` and `PublicObserverLocationFromObserver` of `public.go`,
and the choice between them that `publicObserverLocation` of `lifecycle.go` makes for an
observation: the node of the observer's key first, then the observer row of key and region.
The two rows are arguments; a row that the database does not have, or fails to read, is
`none`.
-/

namespace CartoLive.Live

open CartoLive.Go

variable [LiveEnv]

/-- `PublicObserverLocationFromNode`. -/
def publicObserverLocationFromNode (node : Node) (iata : String) :
    Option PublicObserverLocation :=
  match node.latitude, node.longitude with
  | some lat, some lng =>
    if !validPublicCoords lat lng then none
    else
      some { label := displayLabel node.name node.role, iata := toUpper iata
             region := toUpper iata, lat, lng }
  | _, _ => none

/-- `PublicObserverLocationFromObserver`. -/
def publicObserverLocationFromObserver (observer : Observer) : Option PublicObserverLocation :=
  match observer.latitude, observer.longitude with
  | some lat, some lng =>
    if !validPublicCoords lat lng then none
    else
      some { label := publicObserverLabel observer.name observer.iata
             iata := toUpper observer.iata, region := toUpper observer.iata, lat, lng }
  | _, _ => none

/-- `publicObserverLocation`. -/
def publicObserverLocation (node : Option Node) (observer : Option Observer)
    (observation : PacketObservation) : Option PublicObserverLocation :=
  match node.bind fun node => publicObserverLocationFromNode node observation.iata with
  | some location => some location
  | none => observer.bind publicObserverLocationFromObserver

/-- A node's location has its position, a label from its name and role, and the region of
the observation. -/
theorem publicObserverLocationFromNode_eq_some {node : Node} {iata : String}
    {location : PublicObserverLocation}
    (h : publicObserverLocationFromNode node iata = some location) :
    ∃ lat lng, node.latitude = some lat ∧ node.longitude = some lng ∧
      validPublicCoords lat lng = true ∧
      location = { label := displayLabel node.name node.role, iata := toUpper iata
                   region := toUpper iata, lat, lng } := by
  unfold publicObserverLocationFromNode at h
  split at h
  · rename_i lat lng hlat hlng
    split at h
    · cases h
    · rename_i hvalid
      exact ⟨lat, lng, hlat, hlng, by simpa using hvalid, (Option.some.inj h).symm⟩
  · cases h

theorem publicObserverLocationFromObserver_eq_some {observer : Observer}
    {location : PublicObserverLocation}
    (h : publicObserverLocationFromObserver observer = some location) :
    ∃ lat lng, observer.latitude = some lat ∧ observer.longitude = some lng ∧
      validPublicCoords lat lng = true ∧
      location = { label := publicObserverLabel observer.name observer.iata
                   iata := toUpper observer.iata, region := toUpper observer.iata, lat, lng } := by
  unfold publicObserverLocationFromObserver at h
  split at h
  · rename_i lat lng hlat hlng
    split at h
    · cases h
    · rename_i hvalid
      exact ⟨lat, lng, hlat, hlng, by simpa using hvalid, (Option.some.inj h).symm⟩
  · cases h

end CartoLive.Live
