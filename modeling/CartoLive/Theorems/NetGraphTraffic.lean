import CartoLive.Lib.RunSort
import CartoLive.Theorems.NetGraphForm
import CartoLive.Web.NetGraphLayout
import CartoLive.Web.Reducer

/-!
# The visible graph does not depend on traffic

The nodes and edges of the graph are sorted by traffic, and the layout sorts them again by what
is left without it. What the layout looks at is kept by two inputs that differ in traffic only,
up to the order; its comparisons tell the nodes and the edges apart, so that the order is lost.

## Main results

* `stillDraft_draftFrom`: the loop over the routes carries traffic along and does nothing else
  with it.
* `map_stableVisibleGraph`: the visible graphs of two graphs with the same shapes.
* `evenLanes`: the lanes of a corridor.
* `visible_graph_without_traffic`: the signature, the lanes and the visible graph.
-/

namespace CartoLive.Theorems.NetGraphTraffic

open CartoLive.Go CartoLive.Lib CartoLive.Web CartoLive.Web.Graph
open CartoLive.Theorems.NetGraphForm

/-! ## Inputs without their traffic -/

def stillNode (node : PublicNode) : PublicNode :=
  { node with activityCount := .fin 0, lastSeen := .fin 0 }

def stillRoute (route : PublicRoute) : PublicRoute :=
  { route with packetCount := .fin 0, lastHeard := .fin 0, payloadTypeNames := [] }

/-- Two inputs of `buildNetGraphData` that differ in their traffic at most. -/
structure SameButTraffic (nodes nodes' : List PublicNode) (routes routes' : List PublicRoute) :
    Prop where
  nodes : nodes.map stillNode = nodes'.map stillNode
  routes : routes.map stillRoute = routes'.map stillRoute

def stillSafe (u : String × SafeRoute) : String × SafeRoute :=
  (u.1, { u.2 with packetCount := .fin 0, lastHeard := .fin 0, payloadTypeNames := [] })

def stillGraphNode (node : NetGraphNode) : NetGraphNode :=
  { node with activityCount := .fin 0, lastSeen := .fin 0 }

def stillEdge (edge : NetGraphEdge) : NetGraphEdge :=
  { edge with packetCount := .fin 0, lastHeard := .fin 0, payloadTypeNames := [] }

def stillDraft (draft : GraphDraft) : GraphDraft where
  nodeDrafts := draft.nodeDrafts.map fun entry => (entry.1, stillGraphNode entry.2)
  routeIDsByNode := draft.routeIDsByNode
  edges := draft.edges.map fun entry => (entry.1, stillEdge entry.2)

/-! ## The loop without traffic -/

theorem safeNumber_zero : safeNumber (.fin 0) = .fin 0 := rfl

theorem normalizePublicNode_still (platform : Platform) (node : PublicNode) :
    normalizePublicNode platform (stillNode node) =
      (normalizePublicNode platform node).map stillNode := by
  unfold normalizePublicNode
  dsimp only [stillNode]
  by_cases hid : safeText node.id "" = ""
  · rw [if_pos hid, if_pos hid]
    rfl
  · rw [if_neg hid, if_neg hid, safeNumber_zero]
    dsimp only [Option.map_some, stillNode]

theorem usable_still (route : PublicRoute) :
    (usable (stillRoute route)).map stillSafe = (usable route).map stillSafe := by
  unfold usable normalizePublicRoute
  dsimp only [stillRoute]
  cases normalizeRouteEndpoint route.source with
  | none => rfl
  | some source =>
    cases normalizeRouteEndpoint route.target with
    | none => rfl
    | some target =>
      dsimp only
      by_cases hid : safeText route.id "" = ""
      · rw [if_pos hid, if_pos hid]
      · rw [if_neg hid, if_neg hid]
        dsimp only [Option.bind_some]
        by_cases hends : source.nodeId = target.nodeId
        · rw [if_pos hends, if_pos hends]
        · rw [if_neg hends, if_neg hends]
          rfl

theorem publicNodes_still (platform : Platform) (nodes : List PublicNode) (k : String) :
    byID PublicNode.id ((nodes.map stillNode).filterMap (normalizePublicNode platform)) k =
      (byID PublicNode.id (nodes.filterMap (normalizePublicNode platform)) k).map stillNode := by
  have hid : ∀ node, (stillNode node).id = node.id := fun _ => rfl
  rw [← byID_map hid, List.filterMap_map, List.map_filterMap]
  refine congrArg (fun items => byID PublicNode.id items k) ?_
  refine List.filterMap_congr fun node _ => ?_
  rw [Function.comp_apply, normalizePublicNode_still]

theorem netGraphNodeFromRouteEndpoint_still (endpoint : PublicRouteEndpoint)
    (node : Option PublicNode) :
    stillGraphNode (netGraphNodeFromRouteEndpoint endpoint node) =
      netGraphNodeFromRouteEndpoint endpoint (node.map stillNode) := by
  unfold netGraphNodeFromRouteEndpoint
  dsimp only
  by_cases hid : safeText endpoint.nodeId "" = ""
  · rw [if_pos hid, if_pos hid]
    rfl
  · rw [if_neg hid, if_neg hid]
    cases node with
    | none => dsimp only [stillGraphNode, Option.map_none, Option.getD_none]
    | some node =>
      dsimp only [stillGraphNode, stillNode, Option.map_some, Option.getD_some]
      congr

theorem set_still (publicNodes : String → Option PublicNode) (draft : GraphDraft)
    (u : String × SafeRoute) :
    stillDraft (draft.set publicNodes u.1 u.2) =
      (stillDraft draft).set (fun k => (publicNodes k).map stillNode) u.1 (stillSafe u).2 := by
  unfold stillDraft GraphDraft.set
  dsimp only
  rw [Keyed.map_setEntry, Keyed.map_setEntry, Keyed.map_setEntry,
    netGraphNodeFromRouteEndpoint_still, netGraphNodeFromRouteEndpoint_still]
  rfl

theorem draftOf_still (publicNodes : String → Option PublicNode)
    (set : List (String × SafeRoute)) :
    stillDraft (draftOf publicNodes set) =
      draftOf (fun k => (publicNodes k).map stillNode) (set.map stillSafe) := by
  induction set using List.reverseRecOn with
  | nil => rfl
  | append_singleton set u ih =>
    rw [draftOf_concat, set_still, ih, List.map_append, List.map_singleton, draftOf_concat]
    rfl

theorem routesSet_still (us : List (String × SafeRoute)) :
    routesSet (us.map stillSafe) = (routesSet us).map stillSafe := by
  induction us using List.reverseRecOn with
  | nil => rfl
  | append_singleton us u ih =>
    have hkeys : ((routesSet us).map stillSafe).map Prod.fst = (routesSet us).map Prod.fst := by
      rw [List.map_map]
      rfl
    rw [List.map_append, List.map_singleton, routesSet_concat, routesSet_concat, ih, hkeys]
    by_cases hmem : u.2.id ∈ (routesSet us).map Prod.fst
    · rw [if_pos hmem]
      exact if_pos hmem
    · rw [if_neg hmem, List.map_append, List.map_singleton]
      exact if_neg hmem

/-- The maps that the loop of `buildNetGraphData` leaves. -/
def draftFrom (platform : Platform) (nodes : List PublicNode) (routes : List PublicRoute) :
    GraphDraft :=
  draftOf (byID PublicNode.id (nodes.filterMap (normalizePublicNode platform)))
    (routesSet (routes.filterMap usable))

/-- Traffic makes no difference to the maps but in the fields of traffic. -/
theorem stillDraft_draftFrom (platform : Platform) {nodes nodes' : List PublicNode}
    {routes routes' : List PublicRoute} (h : SameButTraffic nodes nodes' routes routes') :
    stillDraft (draftFrom platform nodes routes) =
      stillDraft (draftFrom platform nodes' routes') := by
  have hnodes : ∀ nodes : List PublicNode,
      (fun k => (byID PublicNode.id (nodes.filterMap (normalizePublicNode platform)) k).map
        stillNode) =
      byID PublicNode.id ((nodes.map stillNode).filterMap (normalizePublicNode platform)) :=
    fun nodes => funext fun k => (publicNodes_still platform nodes k).symm
  have hroutes : ∀ routes : List PublicRoute, (routes.filterMap usable).map stillSafe =
      ((routes.map stillRoute).filterMap usable).map stillSafe := by
    intro routes
    rw [List.filterMap_map, List.map_filterMap, List.map_filterMap]
    exact List.filterMap_congr fun route _ => (usable_still route).symm
  unfold draftFrom
  rw [draftOf_still, draftOf_still, ← routesSet_still, ← routesSet_still, hnodes, hnodes,
    hroutes routes, hroutes routes', h.nodes, h.routes]

/-! ## What the layout looks at -/

/-- What the comparison of two nodes looks at. -/
structure NodeShape where
  degree : Nat
  label : String
  id : String

def nodeShape (node : NetGraphNode) : NodeShape where
  degree := node.degree
  label := node.label
  id := node.id

theorem perm_nodeShapes (platform : Platform) {draft draft' : GraphDraft}
    (h : stillDraft draft = stillDraft draft') :
    ((graphOfDraft platform draft).nodes.map nodeShape).Perm
      ((graphOfDraft platform draft').nodes.map nodeShape) := by
  have hstill : ∀ draft, ((graphOfDraft platform draft).nodes.map nodeShape).Perm
      ((((stillDraft draft).nodeDrafts.map (withRoutes (stillDraft draft))).filter
        fun node => 0 < node.degree).map nodeShape) := by
    intro draft
    refine ((List.perm_insertionSort _ _).map nodeShape).trans (List.Perm.of_eq ?_)
    show _ = ((List.map (withRoutes (stillDraft draft)) (List.map _ draft.nodeDrafts)).filter
      _).map nodeShape
    rw [List.map_map, List.filter_map, List.filter_map, List.map_map, List.map_map]
    rfl
  have hsecond := hstill draft'
  rw [← h] at hsecond
  exact (hstill draft).trans hsecond.symm

theorem perm_edgeShapes (platform : Platform) {draft draft' : GraphDraft}
    (h : stillDraft draft = stillDraft draft') :
    ((graphOfDraft platform draft).edges.map edgeShape).Perm
      ((graphOfDraft platform draft').edges.map edgeShape) := by
  have hstill : ∀ draft, ((graphOfDraft platform draft).edges.map edgeShape).Perm
      ((stillDraft draft).edges.map fun entry => edgeShape entry.2) := by
    intro draft
    refine ((List.perm_insertionSort _ _).map edgeShape).trans (List.Perm.of_eq ?_)
    show _ = List.map _ (List.map _ draft.edges)
    rw [List.map_map, List.map_map]
    rfl
  have hsecond := hstill draft'
  rw [← h] at hsecond
  exact (hstill draft).trans hsecond.symm

/-! ## The order of the layout -/

/-- The IDs of the endpoints, as they are normalised. -/
def endpointIDs (routes : List PublicRoute) : List String :=
  routes.flatMap fun route =>
    (route.source.toList ++ route.target.toList).map fun endpoint => trim endpoint.nodeId

/-- The comparison of texts tells the IDs of the input apart. -/
structure SeparatesIDs (platform : Platform) (routes : List PublicRoute) : Prop where
  edges : ∀ a ∈ routes.map (fun route => trim route.id),
    ∀ b ∈ routes.map (fun route => trim route.id), platform.localeCompare a b = .eq → a = b
  nodes : ∀ a ∈ endpointIDs routes, ∀ b ∈ endpointIDs routes,
    platform.localeCompare a b = .eq → a = b

section Order

variable (platform : Platform)

def nodeOrder : NodeShape → NodeShape → Ordering :=
  compareLex (fun a b => compare b.degree a.degree)
    (compareLex (fun a b => platform.localeCompare a.label b.label)
      fun a b => platform.localeCompare a.id b.id)

def edgeOrder : EdgeShape → EdgeShape → Ordering :=
  compareLex (fun a b => platform.localeCompare (corridorOf a) (corridorOf b))
    fun a b => platform.localeCompare a.id b.id

variable [Std.TransCmp platform.localeCompare]

instance : Std.TransCmp (nodeOrder platform) := by
  have hdegree : Std.TransCmp fun a b : NodeShape => compare b.degree a.degree :=
    Comparators.transCmp_on (fun m n : Nat => compare n m) NodeShape.degree
  have hlabel : Std.TransCmp fun a b : NodeShape => platform.localeCompare a.label b.label :=
    Comparators.transCmp_on platform.localeCompare NodeShape.label
  have hid : Std.TransCmp fun a b : NodeShape => platform.localeCompare a.id b.id :=
    Comparators.transCmp_on platform.localeCompare NodeShape.id
  unfold nodeOrder
  infer_instance

instance : Std.TransCmp (edgeOrder platform) := by
  have hcorridor : Std.TransCmp fun a b : EdgeShape =>
      platform.localeCompare (corridorOf a) (corridorOf b) :=
    Comparators.transCmp_on platform.localeCompare corridorOf
  have hid : Std.TransCmp fun a b : EdgeShape => platform.localeCompare a.id b.id :=
    Comparators.transCmp_on platform.localeCompare EdgeShape.id
  unfold edgeOrder
  infer_instance

omit [Std.TransCmp platform.localeCompare] in
theorem eq_of_nodeOrder_eq {a b : NodeShape} (h : nodeOrder platform a b = .eq) :
    platform.localeCompare a.id b.id = .eq := by
  unfold nodeOrder compareLex at h
  exact (Ordering.then_eq_eq.mp (Ordering.then_eq_eq.mp h).2).2

omit [Std.TransCmp platform.localeCompare] in
theorem eq_of_edgeOrder_eq {a b : EdgeShape} (h : edgeOrder platform a b = .eq) :
    platform.localeCompare a.id b.id = .eq := by
  unfold edgeOrder compareLex at h
  exact (Ordering.then_eq_eq.mp h).2

end Order

/-! ## The two runs -/

theorem sliceTo_map {α β : Type} (f : α → β) (items : List α) (limit : F64) :
    (sliceTo items limit).map f = sliceTo (items.map f) limit := by
  unfold sliceTo
  cases limit with
  | nan => rfl
  | inf negative =>
    dsimp only
    split <;> rfl
  | fin last =>
    dsimp only
    rw [List.length_map]
    split <;> rw [List.map_take]

/-- The shapes of the nodes and edges of two graphs are the same. -/
structure SameShapes (graph graph' : NetGraphData) : Prop where
  nodes : (graph.nodes.map nodeShape).Perm (graph'.nodes.map nodeShape)
  edges : (graph.edges.map edgeShape).Perm (graph'.edges.map edgeShape)

theorem graphTopologySignature_eq {graph graph' : NetGraphData} (h : SameShapes graph graph') :
    graphTopologySignature graph = graphTopologySignature graph' := by
  have hnodes := h.nodes.map NodeShape.id
  have hedges := h.edges.map fun shape =>
    shape.id ++ ":" ++ shape.sourceID ++ ">" ++ shape.targetID
  rw [List.map_map, List.map_map] at hnodes hedges
  unfold graphTopologySignature sortedTexts
  dsimp only
  exact congrArg₂ (fun nodes edges => "|".intercalate nodes ++ "::" ++ "|".intercalate edges)
    (sort_utf16_eq_of_perm hnodes) (sort_utf16_eq_of_perm hedges)

/-- The graph has nodes and edges that the comparison of texts tells apart by their IDs. -/
structure Apart (platform : Platform) (graph : NetGraphData) : Prop where
  nodeIDs : (graph.nodes.map NetGraphNode.id).Nodup
  edgeIDs : (graph.edges.map NetGraphEdge.id).Nodup
  nodes : ∀ a ∈ graph.nodes, ∀ b ∈ graph.nodes,
    platform.localeCompare a.id b.id = .eq → a.id = b.id
  edges : ∀ a ∈ graph.edges, ∀ b ∈ graph.edges,
    platform.localeCompare a.id b.id = .eq → a.id = b.id

section Runs

variable {platform : Platform} [Std.TransCmp platform.localeCompare] {graph graph' : NetGraphData}

theorem map_sorted_nodes (h : SameShapes graph graph') (hapart : Apart platform graph) :
    (graph.nodes.insertionSort fun a b =>
        (compareNodesForStableLayout platform a b).isLE).map nodeShape =
      (graph'.nodes.insertionSort fun a b =>
        (compareNodesForStableLayout platform a b).isLE).map nodeShape := by
  refine (Comparators.map_sort (nodeOrder platform) nodeShape graph.nodes).trans
    (Eq.trans ?_ (Comparators.map_sort (nodeOrder platform) nodeShape graph'.nodes).symm)
  refine Comparators.sort_eq_of_perm (nodeOrder platform) h.nodes fun a ha b hb hab => ?_
  obtain ⟨node, hnode, rfl⟩ := List.mem_map.mp ha
  obtain ⟨other, hother, rfl⟩ := List.mem_map.mp hb
  have hid := hapart.nodes node hnode other hother (eq_of_nodeOrder_eq platform hab)
  exact congrArg nodeShape (List.inj_on_of_nodup_map hapart.nodeIDs hnode hother hid)

/-- Edges are sorted alike where a part of them is chosen by what the layout looks at. -/
theorem map_sorted_edges {edges edges' : List NetGraphEdge}
    (hperm : (edges.map edgeShape).Perm (edges'.map edgeShape))
    (hapart : Apart platform graph) (hsub : edges ⊆ graph.edges) :
    (edges.insertionSort fun a b =>
        (compareEdgesForStableLayout platform a b).isLE).map edgeShape =
      (edges'.insertionSort fun a b =>
        (compareEdgesForStableLayout platform a b).isLE).map edgeShape := by
  refine (Comparators.map_sort (edgeOrder platform) edgeShape edges).trans
    (Eq.trans ?_ (Comparators.map_sort (edgeOrder platform) edgeShape edges').symm)
  refine Comparators.sort_eq_of_perm (edgeOrder platform) hperm fun a ha b hb hab => ?_
  obtain ⟨edge, hedge, rfl⟩ := List.mem_map.mp ha
  obtain ⟨other, hother, rfl⟩ := List.mem_map.mp hb
  have hid := hapart.edges edge (hsub hedge) other (hsub hother) (eq_of_edgeOrder_eq platform hab)
  exact congrArg edgeShape
    (List.inj_on_of_nodup_map hapart.edgeIDs (hsub hedge) (hsub hother) hid)

/-- A choice of edges by what the layout looks at. -/
theorem perm_filter_edges {edges edges' : List NetGraphEdge}
    (h : (edges.map edgeShape).Perm (edges'.map edgeShape)) (p : EdgeShape → Bool) :
    ((edges.filter fun edge => p (edgeShape edge)).map edgeShape).Perm
      ((edges'.filter fun edge => p (edgeShape edge)).map edgeShape) := by
  have hfilter : ∀ edges : List NetGraphEdge,
      (edges.filter fun edge => p (edgeShape edge)).map edgeShape =
        (edges.map edgeShape).filter p := by
    intro edges
    rw [List.filter_map]
    rfl
  rw [hfilter, hfilter]
  exact h.filter p

/-- The visible graphs have the same shapes in the same order. -/
theorem map_stableVisibleGraph (h : SameShapes graph graph') (hapart : Apart platform graph)
    (limits : VisibleGraphLimits) :
    (stableVisibleGraph platform graph limits).nodes.map nodeShape =
        (stableVisibleGraph platform graph' limits).nodes.map nodeShape ∧
      (stableVisibleGraph platform graph limits).edges.map edgeShape =
        (stableVisibleGraph platform graph' limits).edges.map edgeShape := by
  have hnodes : (stableVisibleGraph platform graph limits).nodes.map nodeShape =
      (stableVisibleGraph platform graph' limits).nodes.map nodeShape := by
    show (sliceTo _ _).map _ = (sliceTo _ _).map _
    rw [sliceTo_map, sliceTo_map, map_sorted_nodes h hapart]
  have hids : (stableVisibleGraph platform graph limits).nodes.map NetGraphNode.id =
      (stableVisibleGraph platform graph' limits).nodes.map NetGraphNode.id := by
    have hids := congrArg (List.map NodeShape.id) hnodes
    rwa [List.map_map, List.map_map] at hids
  refine ⟨hnodes, ?_⟩
  show (sliceTo (List.insertionSort _ (graph.edges.filter fun edge =>
      edge.sourceID ∈ (stableVisibleGraph platform graph limits).nodes.map NetGraphNode.id ∧
        edge.targetID ∈ (stableVisibleGraph platform graph limits).nodes.map NetGraphNode.id))
      _).map _ =
    (sliceTo (List.insertionSort _ (graph'.edges.filter fun edge =>
      edge.sourceID ∈ (stableVisibleGraph platform graph' limits).nodes.map NetGraphNode.id ∧
        edge.targetID ∈ (stableVisibleGraph platform graph' limits).nodes.map NetGraphNode.id))
      _).map _
  rw [sliceTo_map, sliceTo_map, hids]
  refine congrArg (sliceTo · limits.maxEdges)
    (map_sorted_edges ?_ hapart (List.filter_subset_self _))
  exact perm_filter_edges h.edges fun shape =>
    shape.sourceID ∈ (stableVisibleGraph platform graph' limits).nodes.map NetGraphNode.id ∧
      shape.targetID ∈ (stableVisibleGraph platform graph' limits).nodes.map NetGraphNode.id

/-- The plans of edges with the same shapes are the same. -/
theorem buildEdgeRenderPlans_eq {edges edges' : List NetGraphEdge}
    (hperm : (edges.map edgeShape).Perm (edges'.map edgeShape)) (hapart : Apart platform graph)
    (hsub : edges ⊆ graph.edges) (hnodup : (edges.map NetGraphEdge.id).Nodup) :
    buildEdgeRenderPlans platform edges = buildEdgeRenderPlans platform edges' := by
  have hids := hperm.map EdgeShape.id
  rw [List.map_map, List.map_map] at hids
  have hnodup' : (edges'.map NetGraphEdge.id).Nodup := hids.nodup_iff.mp hnodup
  have hlanes : ∀ key,
      lanesOf platform key (edges.filter fun edge => edgeCorridorKey edge = key) =
        lanesOf platform key (edges'.filter fun edge => edgeCorridorKey edge = key) := by
    intro key
    refine lanesOf_eq platform key (map_sorted_edges ?_ hapart
      (List.Subset.trans (List.filter_subset_self _) hsub))
    exact perm_filter_edges hperm fun shape => corridorOf shape = key
  refine funext fun id => Option.ext fun plan => ?_
  rw [buildEdgeRenderPlans_eq_some_iff hnodup,
    buildEdgeRenderPlans_eq_some_iff hnodup']
  exact and_congr_left fun _ => exists_congr fun key => by rw [hlanes]

end Runs

/-! ## The graph of an input -/

theorem nodeId_of_normalizeRouteEndpoint {endpoint : Option PublicRouteEndpoint}
    {safe : PublicRouteEndpoint} (h : normalizeRouteEndpoint endpoint = some safe) :
    ∃ raw, endpoint = some raw ∧ safe.nodeId = trim raw.nodeId := by
  unfold normalizeRouteEndpoint at h
  obtain ⟨raw, hraw, h⟩ := Option.bind_eq_some_iff.mp h
  dsimp only at h
  split at h
  · cases h
  · rw [Option.some.injEq] at h
    rw [← h]
    dsimp only
    exact ⟨raw, hraw, safeText_eq_trim raw.nodeId⟩

/-- The IDs of a usable route are those of the route, trimmed. -/
theorem ids_of_usable {routes : List PublicRoute} {u : String × SafeRoute}
    (h : u ∈ routes.filterMap usable) :
    u.2.id ∈ routes.map (fun route => trim route.id) ∧
      ∀ nodeID, Meets nodeID u.2 → nodeID ∈ endpointIDs routes := by
  obtain ⟨route, hroute, husable⟩ := List.mem_filterMap.mp h
  unfold usable at husable
  obtain ⟨safe, hsafe, husable⟩ := Option.bind_eq_some_iff.mp husable
  split at husable
  · cases husable
  · obtain rfl := Option.some.inj husable
    obtain ⟨hid, -, hsource, htarget⟩ := normalizePublicRoute_spec hsafe
    refine ⟨List.mem_map.mpr ⟨route, hroute, hid.symm⟩, fun nodeID hmeets => ?_⟩
    refine List.mem_flatMap.mpr ⟨route, hroute, List.mem_map.mpr ?_⟩
    rcases hmeets with rfl | rfl
    · obtain ⟨raw, hraw, hnode⟩ := nodeId_of_normalizeRouteEndpoint hsource
      refine ⟨raw, List.mem_append_left _ ?_, hnode.symm⟩
      exact Option.mem_toList.mpr hraw
    · obtain ⟨raw, hraw, hnode⟩ := nodeId_of_normalizeRouteEndpoint htarget
      refine ⟨raw, List.mem_append_right _ ?_, hnode.symm⟩
      exact Option.mem_toList.mpr hraw

section Inputs

variable {platform : Platform} {nodes nodes' : List PublicNode} {routes routes' : List PublicRoute}

theorem fst_of_usable {route : PublicRoute} {u : String × SafeRoute} (h : usable route = some u) :
    u.1 = route.id := by
  unfold usable at h
  obtain ⟨safe, -, h⟩ := Option.bind_eq_some_iff.mp h
  split at h
  · cases h
  · rw [← Option.some.inj h]

/-- Where the trimmed IDs of the routes differ, no two usable routes have one ID. -/
theorem eq_of_usable (hids : (routes.map fun route => trim route.id).Nodup)
    {u v : String × SafeRoute} (hu : u ∈ routes.filterMap usable)
    (hv : v ∈ routes.filterMap usable) (hid : u.2.id = v.2.id) : u = v := by
  obtain ⟨route, hroute, husable⟩ := List.mem_filterMap.mp hu
  obtain ⟨other, hother, hvsable⟩ := List.mem_filterMap.mp hv
  have hraw : ∀ {route : PublicRoute} {u}, usable route = some u → trim route.id = u.2.id := by
    intro route u h
    rw [(usable_proper h).id, fst_of_usable h]
  have hsame : route = other := by
    refine List.inj_on_of_nodup_map hids hroute hother ?_
    rw [hraw husable, hraw hvsable, hid]
  rw [hsame, hvsable] at husable
  exact (Option.some.inj husable).symm

theorem apart_buildNetGraphData (hids : (routes.map fun route => trim route.id).Nodup)
    (hseparates : SeparatesIDs platform routes) :
    Apart platform (buildNetGraphData platform nodes routes) := by
  have hproper : ∀ u ∈ routesSet (routes.filterMap usable), Proper u := by
    intro u hu
    obtain ⟨route, -, hroute⟩ := List.mem_filterMap.mp (mem_of_mem_routesSet hu)
    exact usable_proper hroute
  have hagree : SetAgree (routesSet (routes.filterMap usable)) := by
    intro u hu v hv hid
    obtain rfl := eq_of_usable hids (mem_of_mem_routesSet hu) (mem_of_mem_routesSet hv) hid
    exact ⟨rfl, SameEnds.refl _⟩
  rw [buildNetGraphData_eq]
  have hnodes : ∀ node ∈ (graphOfDraft platform (draftOf
      (byID PublicNode.id (nodes.filterMap (normalizePublicNode platform)))
      (routesSet (routes.filterMap usable)))).nodes, node.id ∈ endpointIDs routes := by
    intro node hnode
    obtain ⟨hlength, hpos, -, hmem⟩ := node_spec platform _ hnode
    rw [hlength] at hpos
    obtain ⟨id, hid⟩ := List.exists_mem_of_length_pos hpos
    obtain ⟨u, hu, -, hmeets⟩ := (hmem id).mp hid
    exact (ids_of_usable (mem_of_mem_routesSet hu)).2 node.id hmeets
  have hedges : ∀ edge ∈ (graphOfDraft platform (draftOf
      (byID PublicNode.id (nodes.filterMap (normalizePublicNode platform)))
      (routesSet (routes.filterMap usable)))).edges,
      edge.id ∈ routes.map fun route => trim route.id := by
    intro edge hedge
    obtain ⟨u, hu, rfl⟩ := exists_set_of_edge hedge
    exact (ids_of_usable (mem_of_mem_routesSet hu)).1
  exact
    { nodeIDs := nodup_ids_nodes platform _ hproper
      edgeIDs := (wellFormed_of_setAgree hproper hagree).indexed.edgeIDs
      nodes := fun a ha b hb => hseparates.nodes a.id (hnodes a ha) b.id (hnodes b hb)
      edges := fun a ha b hb => hseparates.edges a.id (hedges a ha) b.id (hedges b hb) }

theorem sameShapes_buildNetGraphData (h : SameButTraffic nodes nodes' routes routes') :
    SameShapes (buildNetGraphData platform nodes routes)
      (buildNetGraphData platform nodes' routes') := by
  have hstill := stillDraft_draftFrom platform h
  rw [buildNetGraphData_eq, buildNetGraphData_eq]
  exact ⟨perm_nodeShapes platform hstill, perm_edgeShapes platform hstill⟩

end Inputs

/-- What the page shows of a graph, within limits, with the lanes of its edges. -/
structure SameView (platform : Platform) (graph graph' : NetGraphData) : Prop where
  nodeIDs : graph.nodes.map NetGraphNode.id = graph'.nodes.map NetGraphNode.id
  edgeIDs : graph.edges.map NetGraphEdge.id = graph'.edges.map NetGraphEdge.id
  signature : graphTopologySignature graph = graphTopologySignature graph'
  plans : buildEdgeRenderPlans platform graph.edges = buildEdgeRenderPlans platform graph'.edges
  lanes : EvenLanes graph.edges (buildEdgeRenderPlans platform graph.edges)

/-- The signature, the lanes and, within any limits, the visible graph do not depend on traffic. -/
theorem visible_graph_without_traffic (platform : Platform)
    [Std.TransCmp platform.localeCompare] {nodes nodes' : List PublicNode}
    {routes routes' : List PublicRoute} (h : SameButTraffic nodes nodes' routes routes')
    (hids : (routes.map fun route => trim route.id).Nodup)
    (hseparates : SeparatesIDs platform routes) :
    let graph := buildNetGraphData platform nodes routes
    let graph' := buildNetGraphData platform nodes' routes'
    graphTopologySignature graph = graphTopologySignature graph' ∧
      buildEdgeRenderPlans platform graph.edges = buildEdgeRenderPlans platform graph'.edges ∧
      EvenLanes graph.edges (buildEdgeRenderPlans platform graph.edges) ∧
      ∀ limits, SameView platform (stableVisibleGraph platform graph limits)
        (stableVisibleGraph platform graph' limits) := by
  intro graph graph'
  have hshapes : SameShapes graph graph' := sameShapes_buildNetGraphData h
  have hapart : Apart platform graph := apart_buildNetGraphData hids hseparates
  refine ⟨graphTopologySignature_eq hshapes,
    buildEdgeRenderPlans_eq hshapes.edges hapart (List.Subset.refl _) hapart.edgeIDs,
    evenLanes hapart.edgeIDs, fun limits => ?_⟩
  obtain ⟨hnodes, hedges⟩ := map_stableVisibleGraph hshapes hapart limits
  have hnodeIDs := congrArg (List.map NodeShape.id) hnodes
  have hedgeIDs := congrArg (List.map EdgeShape.id) hedges
  rw [List.map_map, List.map_map] at hnodeIDs hedgeIDs
  have hsub : (stableVisibleGraph platform graph limits).edges ⊆ graph.edges := by
    intro edge hedge
    have hsorted := (sliceTo_sublist _ _).subset hedge
    exact (List.mem_filter.mp ((List.mem_insertionSort _).mp hsorted)).1
  have hnodup : ((stableVisibleGraph platform graph limits).edges.map NetGraphEdge.id).Nodup := by
    refine List.Nodup.sublist ((sliceTo_sublist _ _).map _) ?_
    refine ((List.perm_insertionSort _ _).map _).nodup_iff.mpr ?_
    exact hapart.edgeIDs.sublist (List.filter_sublist.map _)
  exact
    { nodeIDs := hnodeIDs
      edgeIDs := hedgeIDs
      signature := graphTopologySignature_eq ⟨List.Perm.of_eq hnodes, List.Perm.of_eq hedges⟩
      plans := buildEdgeRenderPlans_eq (List.Perm.of_eq hedges) hapart hsub hnodup
      lanes := evenLanes hnodup }

/-- Texts in the order of their characters. -/
def byCharacters : Platform where
  localeCompare a b := compare a b
  toUpperCase text := text

/-- Three routes between two places, two of them the same way, with the traffic of an hour. -/
def routesOf (packets : Rat) : List PublicRoute :=
  [("r1", "a", "b", packets), ("r2", "a", "b", 7), ("r3", "b", "a", 2 * packets)].map
    fun (id, source, target, packetCount) =>
      { id
        source := some { nodeId := source, label := source, lat := .fin 50, lng := .fin (-100) }
        target := some { nodeId := target, label := target, lat := .fin 51, lng := .fin (-101) }
        distanceKm := .fin 132
        packetCount := .fin packetCount
        lastHeard := .fin (1700000000000 + packetCount)
        payloadTypeNames := if packetCount < 5 then ["advert"] else [] }

theorem visible_graph_without_traffic_test :
    let graph := fun packets => buildNetGraphData byCharacters [] (routesOf packets)
    ∀ limits, SameView byCharacters (stableVisibleGraph byCharacters (graph 3) limits)
      (stableVisibleGraph byCharacters (graph 30) limits) := by
  have : Std.TransCmp byCharacters.localeCompare :=
    inferInstanceAs (Std.TransCmp fun a b : String => compare a b)
  have htraffic : SameButTraffic [] [] (routesOf 3) (routesOf 30) := ⟨rfl, rfl⟩
  have hids : ((routesOf 3).map fun route => trim route.id).Nodup := by decide
  have heq : ∀ a b : String, byCharacters.localeCompare a b = .eq → a = b := fun _ _ h =>
    Std.LawfulEqOrd.eq_of_compare h
  have hseparates : SeparatesIDs byCharacters (routesOf 3) :=
    ⟨fun a _ b _ h => heq a b h, fun a _ b _ h => heq a b h⟩
  intro graph
  exact (visible_graph_without_traffic byCharacters htraffic hids hseparates).2.2.2

end CartoLive.Theorems.NetGraphTraffic
