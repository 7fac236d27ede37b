import CartoLive.Lib.Keyed
import CartoLive.Web.Sanitize
import Mathlib.Data.List.Induction

/-!
# The network graph

`buildNetGraphData` of `netgraph.ts` and the selections from its graph. A field that should be a
number is the number that `Number` makes of its value, NaN where the value is not numeric. The
comparison of texts and the upper case of a text are the platform's. A `Map` that is iterated is
the list of its entries, one that is only looked up is a function, and a set that is only asked
for its members is a list. A route's `from` and `to` are its `source` and `target`.
-/

namespace CartoLive.Web.Graph

open CartoLive.Go CartoLive.Lib

/-! ## Records -/

/-- What the code takes from the platform; a comparison is the sign of its result. -/
structure Platform where
  localeCompare : String → String → Ordering
  toUpperCase : String → String

structure PublicNode where
  id : String
  label : String
  role : String
  isObserver : Bool
  latitude : F64
  longitude : F64
  lastSeen : F64
  firstSeen : F64
  iatasHeardIn : List String
  activityCount : F64
  deriving DecidableEq

structure PublicRouteEndpoint where
  nodeId : String
  label : String
  lat : F64
  lng : F64
  deriving DecidableEq

structure PublicRoute where
  id : String
  source : Option PublicRouteEndpoint
  target : Option PublicRouteEndpoint
  distanceKm : F64
  packetCount : F64
  lastHeard : F64
  payloadTypeNames : List String
  deriving DecidableEq

structure NetGraphNode where
  id : String
  label : String
  role : String
  isObserver : Bool
  lat : F64
  lng : F64
  lastSeen : F64
  firstSeen : F64
  iatasHeardIn : List String
  activityCount : F64
  degree : Nat
  routeIDs : List String
  deriving DecidableEq

structure NetGraphEdge where
  id : String
  sourceID : String
  targetID : String
  sourceLabel : String
  targetLabel : String
  distanceKm : F64
  packetCount : F64
  lastHeard : F64
  payloadTypeNames : List String
  deriving DecidableEq

structure NetGraphData where
  nodes : List NetGraphNode
  edges : List NetGraphEdge
  nodeByID : String → Option NetGraphNode
  edgeByID : String → Option NetGraphEdge

/-! ## Fields -/

/-- `safeText` of a text. -/
def safeText (value fallback : String) : String := sanitizeString value fallback

/-- `safeNumber`, with the fallback zero. -/
def safeNumber (value : F64) : F64 := sanitizeNumber value (.fin 0)

def isFiniteCoordinate (lat lng : F64) : Bool :=
  !(lat.isNaN || lat.isInf) && !(lng.isNaN || lng.isInf)

/-- `safeStringArray`. -/
def safeStringArray (values : List String) : List String :=
  (values.map fun value => safeText value "").filter (· ≠ "")

/-- `safePayloadTypeNames`. -/
def safePayloadTypeNames (values : List String) : List String :=
  let next := (values.map trim).filter (· ≠ "")
  if next = [] then ["unknown"] else next.eraseDups

/-- The sign of `b - a`, for numbers that are finite. -/
def descending (a b : F64) : Ordering := if a.lt b then .gt else if b.lt a then .lt else .eq

variable (platform : Platform)

/-- `normalizePublicNode`. -/
def normalizePublicNode (node : PublicNode) : Option PublicNode :=
  let id := safeText node.id ""
  if id = "" then none
  else
    some
      { id
        label := safeText node.label id
        role := normalizeNodeRole node.role
        isObserver := node.isObserver
        latitude := safeNumber node.latitude
        longitude := safeNumber node.longitude
        lastSeen := safeNumber node.lastSeen
        firstSeen := safeNumber node.firstSeen
        iatasHeardIn := (safeStringArray node.iatasHeardIn).map platform.toUpperCase
        activityCount := safeNumber node.activityCount }

/-- `normalizeRouteEndpoint`. -/
def normalizeRouteEndpoint (endpoint : Option PublicRouteEndpoint) : Option PublicRouteEndpoint :=
  endpoint.bind fun endpoint =>
    let nodeId := safeText endpoint.nodeId ""
    if nodeId = "" then none
    else
      some
        { nodeId
          label := safeText endpoint.label nodeId
          lat := safeNumber endpoint.lat
          lng := safeNumber endpoint.lng }

/-- What `normalizePublicRoute` returns: both ends are there. -/
structure SafeRoute where
  id : String
  source : PublicRouteEndpoint
  target : PublicRouteEndpoint
  distanceKm : F64
  packetCount : F64
  lastHeard : F64
  payloadTypeNames : List String
  deriving DecidableEq

/-- `normalizePublicRoute`. -/
def normalizePublicRoute (route : PublicRoute) : Option SafeRoute :=
  let id := safeText route.id ""
  match normalizeRouteEndpoint route.source, normalizeRouteEndpoint route.target with
  | some source, some target =>
    if id = "" then none
    else
      some
        { id, source, target
          distanceKm := safeNumber route.distanceKm
          packetCount := safeNumber route.packetCount
          lastHeard := safeNumber route.lastHeard
          payloadTypeNames := safePayloadTypeNames route.payloadTypeNames }
  | _, _ => none

/-! ## The graph -/

def nodeFromDefaults (fallbackID : String) : NetGraphNode where
  id := fallbackID
  label := fallbackID
  role := "unknown"
  isObserver := false
  lat := .fin 0
  lng := .fin 0
  lastSeen := .fin 0
  firstSeen := .fin 0
  iatasHeardIn := []
  activityCount := .fin 0
  degree := 0
  routeIDs := []

def netGraphNodeFromRouteEndpoint (endpoint : PublicRouteEndpoint) (node : Option PublicNode) :
    NetGraphNode :=
  let id := safeText endpoint.nodeId ""
  let nodeLabel := (node.map (·.label)).getD ""
  if id = "" then nodeFromDefaults "unknown"
  else
    { id
      label := safeText (if nodeLabel ≠ "" then nodeLabel
        else if endpoint.label ≠ "" then endpoint.label else id) ""
      role := (node.map (·.role)).getD "unknown"
      isObserver := (node.map (·.isObserver)).getD false
      lat := (node.map (·.latitude)).getD endpoint.lat
      lng := (node.map (·.longitude)).getD endpoint.lng
      lastSeen := (node.map (·.lastSeen)).getD (.fin 0)
      firstSeen := (node.map (·.firstSeen)).getD (.fin 0)
      iatasHeardIn := sortedNames ((node.map (·.iatasHeardIn)).getD [])
      activityCount := (node.map (·.activityCount)).getD (.fin 0)
      degree := 0
      routeIDs := [] }

/-- `addRouteForNode`. -/
def addRouteForNode (routesByNode : String → List String) (nodeID routeID : String) :
    String → List String :=
  let routes := routesByNode nodeID
  Function.update routesByNode nodeID (if routeID ∈ routes then routes else routes ++ [routeID])

/-- The edge that is set for a route. -/
def edgeOfRoute (route : SafeRoute) : NetGraphEdge where
  id := route.id
  sourceID := route.source.nodeId
  targetID := route.target.nodeId
  sourceLabel := route.source.label
  targetLabel := route.target.label
  distanceKm := route.distanceKm
  packetCount := route.packetCount
  lastHeard := route.lastHeard
  payloadTypeNames := sortedNames route.payloadTypeNames

/-- The three maps of the loop of `buildNetGraphData`. -/
structure GraphDraft where
  nodeDrafts : List (String × NetGraphNode)
  routeIDsByNode : String → List String
  edges : List (String × NetGraphEdge)

/-- The loop starts with empty maps. -/
def GraphDraft.empty : GraphDraft where
  nodeDrafts := []
  routeIDsByNode := fun _ => []
  edges := []

/-- The body of the loop behind its checks. -/
def GraphDraft.set (publicNodes : String → Option PublicNode) (draft : GraphDraft) (id : String)
    (route : SafeRoute) : GraphDraft where
  nodeDrafts :=
    Keyed.setEntry
      (Keyed.setEntry draft.nodeDrafts route.source.nodeId
        (netGraphNodeFromRouteEndpoint route.source (publicNodes route.source.nodeId)))
      route.target.nodeId
      (netGraphNodeFromRouteEndpoint route.target (publicNodes route.target.nodeId))
  routeIDsByNode :=
    addRouteForNode (addRouteForNode draft.routeIDsByNode route.source.nodeId route.id)
      route.target.nodeId route.id
  edges := Keyed.setEntry draft.edges id (edgeOfRoute route)

/-- The body of the loop: it asks for the normalised ID and sets the one of the route. -/
def addRoute (publicNodes : String → Option PublicNode) (draft : GraphDraft)
    (route : PublicRoute) : GraphDraft :=
  match normalizePublicRoute route with
  | none => draft
  | some safeRoute =>
    if !isFiniteCoordinate safeRoute.source.lat safeRoute.source.lng ||
        !isFiniteCoordinate safeRoute.target.lat safeRoute.target.lng then draft
    else if safeRoute.source.nodeId = safeRoute.target.nodeId then draft
    else if safeRoute.id ∈ draft.edges.map Prod.fst then draft
    else draft.set publicNodes route.id safeRoute

/-- `new Map(items.map((item) => [item.id, item]))`. -/
def byID {α : Type} (id : α → String) (items : List α) : String → Option α :=
  items.foldl (fun found item => Function.update found (id item) (some item)) fun _ => none

def compareNodes (a b : NetGraphNode) : Ordering :=
  (compare b.degree a.degree).then
    ((descending a.activityCount b.activityCount).then (platform.localeCompare a.label b.label))

def compareEdges (a b : NetGraphEdge) : Ordering :=
  (descending a.packetCount b.packetCount).then (descending a.lastHeard b.lastHeard)

/-- `buildNetGraphData`. Its sorts are stable. -/
def buildNetGraphData (nodes : List PublicNode) (routes : List PublicRoute) : NetGraphData :=
  let publicNodes := byID PublicNode.id (nodes.filterMap (normalizePublicNode platform))
  let draft := routes.foldl (addRoute publicNodes) GraphDraft.empty
  let graphNodes :=
    ((draft.nodeDrafts.map fun entry =>
      let routeIDs := sortedNames (draft.routeIDsByNode entry.2.id)
      { entry.2 with degree := routeIDs.length, routeIDs }).filter
        fun node => 0 < node.degree).insertionSort fun a b => (compareNodes platform a b).isLE
  let graphEdges := (draft.edges.map Prod.snd).insertionSort fun a b => (compareEdges a b).isLE
  { nodes := graphNodes
    edges := graphEdges
    nodeByID := byID NetGraphNode.id graphNodes
    edgeByID := byID NetGraphEdge.id graphEdges }

/-! ## Selections -/

structure NetGraphSelection where
  nodeIDs : List String
  edgeIDs : List String

/-- `selectionForNode`. -/
def selectionForNode (graph : NetGraphData) (nodeID : String) : NetGraphSelection :=
  match graph.nodeByID nodeID with
  | none => { nodeIDs := [], edgeIDs := [] }
  | some node =>
    { nodeIDs := node.id :: (node.routeIDs.filterMap graph.edgeByID).flatMap fun edge =>
        [edge.sourceID, edge.targetID]
      edgeIDs := node.routeIDs }

def emptyGraph : NetGraphData where
  nodes := []
  edges := []
  nodeByID := fun _ => none
  edgeByID := fun _ => none

/-- `selectedNeighborhood`. -/
def selectedNeighborhood (graph : NetGraphData) (nodeID : String) : NetGraphData :=
  match graph.nodeByID nodeID with
  | none => emptyGraph
  | some _ =>
    let selection := selectionForNode graph nodeID
    let nodes := graph.nodes.filter fun item => item.id ∈ selection.nodeIDs
    let edges := graph.edges.filter fun edge =>
      edge.id ∈ selection.edgeIDs ∧ edge.sourceID ∈ selection.nodeIDs ∧
        edge.targetID ∈ selection.nodeIDs
    { nodes
      edges
      nodeByID := byID NetGraphNode.id nodes
      edgeByID := byID NetGraphEdge.id edges }

/-! ## Texts and entries -/

@[simp] theorem safeText_eq_trim (value : String) : safeText value "" = trim value := by
  unfold safeText sanitizeString
  split
  · rename_i h
    exact h.symm
  · rfl

theorem safeText_safeText (value : String) :
    safeText (safeText value "") "" = safeText value "" := by
  rw [safeText_eq_trim, safeText_eq_trim, trim_trim]

/-- A map from the IDs of a list finds an item that has the ID. -/
theorem mem_of_byID {α : Type} {id : α → String} {items : List α} {k : String} {x : α}
    (h : byID id items k = some x) : x ∈ items ∧ id x = k := by
  induction items using List.reverseRecOn with
  | nil => cases h
  | append_singleton items item ih =>
    unfold byID at h ih
    rw [List.foldl_append, List.foldl_cons, List.foldl_nil, Function.update_apply] at h
    split at h
    · rename_i hk
      obtain rfl := Option.some.inj h
      exact ⟨List.mem_append_right _ List.mem_cons_self, hk.symm⟩
    · obtain ⟨hmem, hid⟩ := ih h
      exact ⟨List.mem_append_left _ hmem, hid⟩

/-- Where every item has an ID of its own, it is found under it. -/
theorem byID_eq_some_iff {α : Type} {id : α → String} {items : List α}
    (hnodup : (items.map id).Nodup) {k : String} {x : α} :
    byID id items k = some x ↔ x ∈ items ∧ id x = k := by
  refine ⟨mem_of_byID, ?_⟩
  rintro ⟨hx, rfl⟩
  induction items using List.reverseRecOn with
  | nil => cases hx
  | append_singleton items item ih =>
    rw [List.map_append, List.nodup_append] at hnodup
    unfold byID at ih ⊢
    rw [List.foldl_append, List.foldl_cons, List.foldl_nil, Function.update_apply]
    rcases List.mem_append.mp hx with hx | hx
    · have hne : id x ≠ id item := hnodup.2.2 _ (List.mem_map_of_mem hx) _ List.mem_cons_self
      rw [if_neg hne]
      exact ih hnodup.1 hx
    · rw [List.mem_singleton.mp hx, if_pos rfl]

/-- A map from IDs, of items that are changed but keep their IDs. -/
theorem byID_map {α β : Type} {id : α → String} {id' : β → String} {f : α → β}
    (hf : ∀ x, id' (f x) = id x) (items : List α) (k : String) :
    byID id' (items.map f) k = (byID id items k).map f := by
  induction items using List.reverseRecOn with
  | nil => rfl
  | append_singleton items item ih =>
    unfold byID at ih ⊢
    rw [List.map_append, List.map_singleton, List.foldl_append, List.foldl_append,
      List.foldl_cons, List.foldl_cons, List.foldl_nil, List.foldl_nil, Function.update_apply,
      Function.update_apply, hf, ih]
    split <;> rfl

end CartoLive.Web.Graph
