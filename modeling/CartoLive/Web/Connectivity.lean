import CartoLive.Lib.LabelSearch
import CartoLive.Web.Sanitize
import Mathlib.Algebra.Order.Ring.Rat
import Mathlib.Data.List.Sort

/-!
# Paths between nodes

The graph of `connectivity.ts` and its search for paths. Maps are functions from their keys,
numbers are exact, and the comparison of texts and the upper case of a text are the
platform's. A route's `from` and `to` are its `source` and `target`.
-/

namespace CartoLive.Web.Connectivity

open CartoLive.Lib

/-- What the code relies on of the platform. -/
structure Platform where
  localeCompare : String → String → ℚ
  localeCompare_self : ∀ text, localeCompare text text = 0
  toUpperCase : String → String

structure PublicRouteEndpoint where
  nodeId : String
  label : String
  pathHash3 : Option String
  deriving DecidableEq

structure PublicRoute where
  id : String
  source : PublicRouteEndpoint
  target : PublicRouteEndpoint
  distanceKm : ℚ
  packetCount : ℚ
  lastHeard : ℚ
  deriving DecidableEq

structure GraphEdge where
  route : PublicRoute
  fromNodeID : String
  toNodeID : String
  deriving DecidableEq

structure ConnectivityGraph where
  nodesByID : String → Option Live.PublicNode
  routesByID : String → Option PublicRoute
  adjacency : String → List GraphEdge
  pathHash3ByNodeID : String → Option String

/-- `a || b || …` of numbers. -/
def firstNonzero : List ℚ → ℚ
  | [] => 0
  | x :: rest => if x = 0 then firstNonzero rest else x

variable (platform : Platform)

def normalizePathHash3 (value : Option String) : String :=
  let normalized := platform.toUpperCase (trim (value.getD ""))
  if normalized.toList.length = 6 ∧
      normalized.toList.all (fun c => c.isDigit || ('A' ≤ c && c ≤ 'F')) then normalized
  else ""

def registerPathHash3 (pathHash3ByNodeID : String → Option String) (nodeID : String)
    (value : Option String) : String → Option String :=
  let normalized := normalizePathHash3 platform value
  if normalized ≠ "" ∧ pathHash3ByNodeID nodeID = none then
    Function.update pathHash3ByNodeID nodeID (some normalized)
  else pathHash3ByNodeID

def meshcorePath3 (prefixes : List String) : String :=
  ",".intercalate ((prefixes.map fun value => normalizePathHash3 platform (some value)).filter
    (· ≠ ""))

def appendEdge (adjacency : String → List GraphEdge) (nodeID : String) (edge : GraphEdge) :
    String → List GraphEdge :=
  Function.update adjacency nodeID (adjacency nodeID ++ [edge])

def compareRoutesByActivity (left right : PublicRoute) : ℚ :=
  firstNonzero
    [right.packetCount - left.packetCount, right.lastHeard - left.lastHeard,
      platform.localeCompare left.id right.id]

def compareGraphEdges (left right : GraphEdge) : ℚ :=
  compareRoutesByActivity platform left.route right.route

/-- The body of the loop of `buildConnectivityGraph`. -/
def addRoute (graph : ConnectivityGraph) (route : PublicRoute) : ConnectivityGraph :=
  if graph.nodesByID route.source.nodeId = none ∨ graph.nodesByID route.target.nodeId = none then
    graph
  else
    let hashes := registerPathHash3 platform graph.pathHash3ByNodeID route.source.nodeId
      route.source.pathHash3
    let hashes := registerPathHash3 platform hashes route.target.nodeId route.target.pathHash3
    let adjacency := appendEdge graph.adjacency route.source.nodeId
      { route, fromNodeID := route.source.nodeId, toNodeID := route.target.nodeId }
    let adjacency := appendEdge adjacency route.target.nodeId
      { route, fromNodeID := route.target.nodeId, toNodeID := route.source.nodeId }
    { graph with
      routesByID := Function.update graph.routesByID route.id (some route)
      adjacency
      pathHash3ByNodeID := hashes }

/-- The sort of the edges is stable. -/
def buildConnectivityGraph (nodes : List Live.PublicNode) (routes : List PublicRoute) :
    ConnectivityGraph :=
  let graph := routes.foldl (addRoute platform)
    { nodesByID := nodes.foldl (fun byID node => Function.update byID node.id (some node))
        fun _ => none
      routesByID := fun _ => none
      adjacency := fun _ => []
      pathHash3ByNodeID := fun _ => none }
  { graph with
    adjacency := fun nodeID => (graph.adjacency nodeID).insertionSort fun left right =>
      compareGraphEdges platform left right ≤ 0 }

/-! ## Paths -/

structure PathCandidate where
  nodeID : String
  hopCount : Nat
  routeIDs : List String
  nodeIDs : List String
  totalDistanceKm : ℚ
  strongestRoutePacketCount : ℚ
  totalRoutePackets : ℚ
  lastHeard : ℚ
  endpointLabels : List String
  pathHash3 : List String
  deriving DecidableEq

def comparePathCandidates (left right : PathCandidate) : ℚ :=
  firstNonzero
    [(left.hopCount : ℚ) - right.hopCount,
      right.strongestRoutePacketCount - left.strongestRoutePacketCount,
      right.lastHeard - left.lastHeard,
      right.totalRoutePackets - left.totalRoutePackets,
      left.totalDistanceKm - right.totalDistanceKm,
      platform.localeCompare left.nodeID right.nodeID]

/-- The path without a route. -/
def PathCandidate.start (selectedNodeID : String) : PathCandidate where
  nodeID := selectedNodeID
  hopCount := 0
  routeIDs := []
  nodeIDs := [selectedNodeID]
  totalDistanceKm := 0
  strongestRoutePacketCount := 0
  totalRoutePackets := 0
  lastHeard := 0
  endpointLabels := []
  pathHash3 := []

/-- The path with one route more. -/
def PathCandidate.extend (graph : ConnectivityGraph) (current : PathCandidate) (edge : GraphEdge) :
    PathCandidate where
  nodeID := edge.toNodeID
  hopCount := current.hopCount + 1
  routeIDs := current.routeIDs ++ [edge.route.id]
  nodeIDs := current.nodeIDs ++ [edge.toNodeID]
  totalDistanceKm := current.totalDistanceKm + edge.route.distanceKm
  strongestRoutePacketCount := max current.strongestRoutePacketCount edge.route.packetCount
  totalRoutePackets := current.totalRoutePackets + edge.route.packetCount
  lastHeard := max current.lastHeard edge.route.lastHeard
  endpointLabels := current.endpointLabels ++
    [if edge.route.source.nodeId = edge.fromNodeID then edge.route.target.label
      else edge.route.source.label]
  pathHash3 := current.pathHash3 ++ [(graph.pathHash3ByNodeID edge.toNodeID).getD ""]

/-- The paths that the inner loop of `reachablePaths` makes of one. -/
def extensions (graph : ConnectivityGraph) (current : PathCandidate) : List PathCandidate :=
  ((graph.adjacency current.nodeID).filter fun edge => edge.toNodeID ∉ current.nodeIDs).map
    (current.extend graph)

/-- The loops of `reachablePaths`: a path is taken from the queue, and each of its extensions is
stored for its node, where there is none or it compares better, and put in the queue, which is
sorted again. -/
def pathSearch (graph : ConnectivityGraph) : LabelSearch String PathCandidate where
  node := PathCandidate.nodeID
  successors := extensions graph
  better next existing := comparePathCandidates platform next existing < 0
  arrange queue :=
    queue.insertionSort fun left right => comparePathCandidates platform left right ≤ 0

/-- `reachablePaths`, unless it takes more iterations. -/
def reachablePaths (iterations : Nat) (graph : ConnectivityGraph) (selectedNodeID : String) :
    Option (String → Option PathCandidate) :=
  let search := pathSearch platform graph
  search.run iterations (search.initial (.start selectedNodeID))

structure ReachableNode where
  node : Live.PublicNode
  hopCount : Nat
  pathRouteIDs : List String
  pathNodeIDs : List String
  totalDistanceKm : ℚ
  strongestRoutePacketCount : ℚ
  totalRoutePackets : ℚ
  lastHeard : ℚ
  endpointLabels : List String
  pathHash3 : List String
  meshcorePath3 : String

/-- What `shortestPathBetween` makes of a path. -/
def reachableNode (node : Live.PublicNode) (path : PathCandidate) : ReachableNode where
  node := node
  hopCount := path.hopCount
  pathRouteIDs := path.routeIDs
  pathNodeIDs := path.nodeIDs
  totalDistanceKm := path.totalDistanceKm
  strongestRoutePacketCount := path.strongestRoutePacketCount
  totalRoutePackets := path.totalRoutePackets
  lastHeard := path.lastHeard
  endpointLabels := path.endpointLabels
  pathHash3 := path.pathHash3
  meshcorePath3 := meshcorePath3 platform path.pathHash3

/-- `shortestPathBetween`, unless the search takes more iterations. -/
def shortestPathBetween (iterations : Nat) (graph : ConnectivityGraph)
    (sourceNodeID targetNodeID : Option String) : Option (Option ReachableNode) :=
  match sourceNodeID, targetNodeID with
  | some source, some target =>
    if source = "" ∨ target = "" ∨ source = target ∨ graph.nodesByID source = none ∨
        graph.nodesByID target = none then
      some none
    else
      (reachablePaths platform iterations graph source).map fun best =>
        match best target, graph.nodesByID target with
        | some path, some node => some (reachableNode platform node path)
        | _, _ => none
  | _, _ => some none

end CartoLive.Web.Connectivity
