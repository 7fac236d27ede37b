import CartoLive.Web.NetGraph

/-!
# What the loop over the routes leaves

The maps of `buildNetGraphData` after its loop, from the list of the routes that are set: the
keys of the edges are the IDs as they are written, a node is kept under its own ID, and its
routes are those that meet it.
-/

namespace CartoLive.Web.Graph

open CartoLive.Go CartoLive.Lib

/-! ## Usable routes -/

/-- A route that joins two nodes: its ID as it is written, and what it is normalised to. -/
def usable (route : PublicRoute) : Option (String × SafeRoute) :=
  (normalizePublicRoute route).bind fun safeRoute =>
    if safeRoute.source.nodeId = safeRoute.target.nodeId then none else some (route.id, safeRoute)

theorem sanitizeNumber_finite (value : F64) :
    (safeNumber value).isNaN = false ∧ (safeNumber value).isInf = false := by
  unfold safeNumber sanitizeNumber
  split
  · exact ⟨rfl, rfl⟩
  · rename_i h
    rw [Bool.or_eq_true, not_or, Bool.not_eq_true, Bool.not_eq_true] at h
    exact h

/-- A normalised endpoint has a trimmed ID that is not empty, and finite coordinates. -/
theorem normalizeRouteEndpoint_spec {endpoint : Option PublicRouteEndpoint}
    {safe : PublicRouteEndpoint} (h : normalizeRouteEndpoint endpoint = some safe) :
    safe.nodeId ≠ "" ∧ safeText safe.nodeId "" = safe.nodeId ∧
      isFiniteCoordinate safe.lat safe.lng = true := by
  unfold normalizeRouteEndpoint at h
  obtain ⟨raw, -, h⟩ := Option.bind_eq_some_iff.mp h
  dsimp only at h
  split at h
  · cases h
  · rename_i hne
    rw [Option.some.injEq] at h
    rw [← h]
    dsimp only
    obtain ⟨hlat, hlat'⟩ := sanitizeNumber_finite raw.lat
    obtain ⟨hlng, hlng'⟩ := sanitizeNumber_finite raw.lng
    refine ⟨hne, safeText_safeText raw.nodeId, ?_⟩
    unfold isFiniteCoordinate
    rw [hlat, hlat', hlng, hlng']
    rfl

/-- What is known of a usable route. -/
structure Proper (u : String × SafeRoute) : Prop where
  id : u.2.id = trim u.1
  id_ne : u.2.id ≠ ""
  trimmed : trim u.2.id = u.2.id
  source : u.2.source.nodeId ≠ "" ∧ safeText u.2.source.nodeId "" = u.2.source.nodeId
  target : u.2.target.nodeId ≠ "" ∧ safeText u.2.target.nodeId "" = u.2.target.nodeId
  ends : u.2.source.nodeId ≠ u.2.target.nodeId

theorem normalizePublicRoute_spec {route : PublicRoute} {safe : SafeRoute}
    (h : normalizePublicRoute route = some safe) :
    safe.id = trim route.id ∧ safe.id ≠ "" ∧
      normalizeRouteEndpoint route.source = some safe.source ∧
      normalizeRouteEndpoint route.target = some safe.target := by
  unfold normalizePublicRoute at h
  dsimp only at h
  split at h
  · rename_i source target hsource htarget
    split at h
    · cases h
    · rename_i hne
      rw [Option.some.injEq] at h
      rw [← h]
      dsimp only
      exact ⟨safeText_eq_trim route.id, hne, hsource, htarget⟩
  · cases h

theorem usable_proper {route : PublicRoute} {u : String × SafeRoute} (h : usable route = some u) :
    Proper u := by
  unfold usable at h
  obtain ⟨safe, hsafe, h⟩ := Option.bind_eq_some_iff.mp h
  split at h
  · cases h
  · rename_i hends
    cases h
    obtain ⟨hid, hne, hsource, htarget⟩ := normalizePublicRoute_spec hsafe
    obtain ⟨hsource₁, hsource₂, -⟩ := normalizeRouteEndpoint_spec hsource
    obtain ⟨htarget₁, htarget₂, -⟩ := normalizeRouteEndpoint_spec htarget
    exact
      { id := hid
        id_ne := hne
        trimmed := by
          show trim safe.id = safe.id
          rw [hid, trim_trim]
        source := ⟨hsource₁, hsource₂⟩
        target := ⟨htarget₁, htarget₂⟩
        ends := hends }

/-- The body of the loop passes over routes that are not usable, and over those of which the
normalised ID has been set. -/
theorem addRoute_eq (publicNodes : String → Option PublicNode) (draft : GraphDraft)
    (route : PublicRoute) :
    addRoute publicNodes draft route =
      match usable route with
      | none => draft
      | some u =>
        if u.2.id ∈ draft.edges.map Prod.fst then draft else draft.set publicNodes u.1 u.2 := by
  unfold addRoute usable
  cases hsafe : normalizePublicRoute route with
  | none => rfl
  | some safe =>
    obtain ⟨-, -, hsource, htarget⟩ := normalizePublicRoute_spec hsafe
    obtain ⟨-, -, hfrom⟩ := normalizeRouteEndpoint_spec hsource
    obtain ⟨-, -, hto⟩ := normalizeRouteEndpoint_spec htarget
    dsimp only [Option.bind_some]
    rw [hfrom, hto]
    by_cases hends : safe.source.nodeId = safe.target.nodeId
    · rw [if_pos hends, if_pos hends]
      rfl
    · rw [if_neg hends, if_neg hends]
      rfl

/-! ## The routes that are set -/

/-- The body of the loop, for a usable route. -/
def setFresh (publicNodes : String → Option PublicNode) (draft : GraphDraft)
    (u : String × SafeRoute) : GraphDraft :=
  if u.2.id ∈ draft.edges.map Prod.fst then draft else draft.set publicNodes u.1 u.2

/-- The maps after routes have been set. -/
def draftOf (publicNodes : String → Option PublicNode) (set : List (String × SafeRoute)) :
    GraphDraft :=
  set.foldl (fun draft u => draft.set publicNodes u.1 u.2) GraphDraft.empty

/-- The usable routes of which the normalised ID is not the written one of an earlier one. -/
def routesSet (us : List (String × SafeRoute)) : List (String × SafeRoute) :=
  us.foldl (fun set u => if u.2.id ∈ set.map Prod.fst then set else set ++ [u]) []

theorem foldl_addRoute (publicNodes : String → Option PublicNode) (routes : List PublicRoute)
    (draft : GraphDraft) :
    routes.foldl (addRoute publicNodes) draft =
      (routes.filterMap usable).foldl (setFresh publicNodes) draft := by
  induction routes generalizing draft with
  | nil => rfl
  | cons route routes ih =>
    rw [List.foldl_cons, addRoute_eq]
    cases husable : usable route with
    | none => rw [List.filterMap_cons_none husable, ih]
    | some u => rw [List.filterMap_cons_some husable, List.foldl_cons, ih, setFresh]

theorem set_edges (publicNodes : String → Option PublicNode) (draft : GraphDraft) (id : String)
    (route : SafeRoute) :
    (draft.set publicNodes id route).edges = Keyed.setEntry draft.edges id (edgeOfRoute route) :=
  rfl

theorem set_nodeDrafts (publicNodes : String → Option PublicNode) (draft : GraphDraft)
    (id : String) (route : SafeRoute) :
    (draft.set publicNodes id route).nodeDrafts =
      Keyed.setEntry
        (Keyed.setEntry draft.nodeDrafts route.source.nodeId
          (netGraphNodeFromRouteEndpoint route.source (publicNodes route.source.nodeId)))
        route.target.nodeId
        (netGraphNodeFromRouteEndpoint route.target (publicNodes route.target.nodeId)) :=
  rfl

theorem draftOf_concat (publicNodes : String → Option PublicNode)
    (set : List (String × SafeRoute)) (u : String × SafeRoute) :
    draftOf publicNodes (set ++ [u]) = (draftOf publicNodes set).set publicNodes u.1 u.2 := by
  unfold draftOf
  rw [List.foldl_append, List.foldl_cons, List.foldl_nil]

theorem routesSet_concat (us : List (String × SafeRoute)) (u : String × SafeRoute) :
    routesSet (us ++ [u]) =
      if u.2.id ∈ (routesSet us).map Prod.fst then routesSet us else routesSet us ++ [u] := by
  unfold routesSet
  rw [List.foldl_append, List.foldl_cons, List.foldl_nil]

section Draft

variable (publicNodes : String → Option PublicNode) (set : List (String × SafeRoute))

/-- The edges are kept under the IDs as they are written. -/
theorem mem_keys_edges (key : String) :
    key ∈ (draftOf publicNodes set).edges.map Prod.fst ↔ key ∈ set.map Prod.fst := by
  induction set using List.reverseRecOn with
  | nil => exact Iff.rfl
  | append_singleton set u ih =>
    rw [draftOf_concat, set_edges, Keyed.mem_keys_setEntry, ih, List.map_append, List.mem_append,
      List.map_singleton, List.mem_singleton]

theorem nodup_keys_edges : ((draftOf publicNodes set).edges.map Prod.fst).Nodup := by
  induction set using List.reverseRecOn with
  | nil => exact List.nodup_nil
  | append_singleton set u ih =>
    rw [draftOf_concat, set_edges]
    exact Keyed.nodup_setEntry ih u.1 _

/-- Every edge is that of a route that was set under its key. -/
theorem edges_of_set {entry : String × NetGraphEdge}
    (h : entry ∈ (draftOf publicNodes set).edges) :
    ∃ u ∈ set, entry = (u.1, edgeOfRoute u.2) := by
  induction set using List.reverseRecOn with
  | nil => cases h
  | append_singleton set u ih =>
    rw [draftOf_concat, set_edges] at h
    rcases Keyed.mem_setEntry h with rfl | ⟨h, -⟩
    · exact ⟨u, List.mem_append_right _ List.mem_cons_self, rfl⟩
    · obtain ⟨v, hv, heq⟩ := ih h
      exact ⟨v, List.mem_append_left _ hv, heq⟩

/-- The loop sets exactly the routes that it does not pass over. -/
theorem foldl_setFresh (us : List (String × SafeRoute)) :
    us.foldl (setFresh publicNodes) GraphDraft.empty = draftOf publicNodes (routesSet us) := by
  induction us using List.reverseRecOn with
  | nil => rfl
  | append_singleton us u ih =>
    rw [List.foldl_append, List.foldl_cons, List.foldl_nil, ih, setFresh, routesSet_concat]
    by_cases hmem : u.2.id ∈ (routesSet us).map Prod.fst
    · rw [if_pos hmem, if_pos ((mem_keys_edges publicNodes _ _).mpr hmem)]
    · rw [if_neg hmem, if_neg fun h => hmem ((mem_keys_edges publicNodes _ _).mp h),
        draftOf_concat]

/-- The node is one of the ends of the route. -/
def Meets (nodeID : String) (route : SafeRoute) : Prop :=
  nodeID = route.source.nodeId ∨ nodeID = route.target.nodeId

theorem mem_addRouteForNode (routesByNode : String → List String)
    (nodeID routeID node id : String) :
    id ∈ addRouteForNode routesByNode nodeID routeID node ↔
      id ∈ routesByNode node ∨ node = nodeID ∧ id = routeID := by
  unfold addRouteForNode
  rw [Function.update_apply]
  by_cases hnode : node = nodeID
  · subst hnode
    rw [if_pos rfl]
    by_cases hmem : routeID ∈ routesByNode node
    · rw [if_pos hmem]
      exact ⟨Or.inl, fun h => h.elim (fun h => h) fun h => h.2 ▸ hmem⟩
    · rw [if_neg hmem, List.mem_append, List.mem_singleton]
      exact or_congr_right ⟨fun h => ⟨rfl, h⟩, And.right⟩
  · rw [if_neg hnode]
    exact ⟨Or.inl, fun h => h.elim (fun h => h) fun h => absurd h.1 hnode⟩

theorem mem_routeIDsByNode (nodeID id : String) :
    id ∈ (draftOf publicNodes set).routeIDsByNode nodeID ↔
      ∃ u ∈ set, u.2.id = id ∧ Meets nodeID u.2 := by
  induction set using List.reverseRecOn with
  | nil =>
    refine ⟨fun h => ?_, fun ⟨u, hu, _⟩ => ?_⟩
    · cases h
    · cases hu
  | append_singleton set u ih =>
    rw [draftOf_concat, GraphDraft.set, mem_addRouteForNode, mem_addRouteForNode, ih]
    constructor
    · rintro ((⟨v, hv, hid, hmeets⟩ | ⟨hnode, hid⟩) | ⟨hnode, hid⟩)
      · exact ⟨v, List.mem_append_left _ hv, hid, hmeets⟩
      · exact ⟨u, List.mem_append_right _ List.mem_cons_self, hid.symm, Or.inl hnode⟩
      · exact ⟨u, List.mem_append_right _ List.mem_cons_self, hid.symm, Or.inr hnode⟩
    · rintro ⟨v, hv, hid, hmeets⟩
      rcases List.mem_append.mp hv with hv | hv
      · exact Or.inl (Or.inl ⟨v, hv, hid, hmeets⟩)
      · obtain rfl := List.mem_singleton.mp hv
        rcases hmeets with hnode | hnode
        · exact Or.inl (Or.inr ⟨hnode, hid.symm⟩)
        · exact Or.inr ⟨hnode, hid.symm⟩

theorem mem_keys_nodeDrafts (nodeID : String) :
    nodeID ∈ (draftOf publicNodes set).nodeDrafts.map Prod.fst ↔ ∃ u ∈ set, Meets nodeID u.2 := by
  induction set using List.reverseRecOn with
  | nil =>
    refine ⟨fun h => ?_, fun ⟨u, hu, _⟩ => ?_⟩
    · cases h
    · cases hu
  | append_singleton set u ih =>
    rw [draftOf_concat, set_nodeDrafts, Keyed.mem_keys_setEntry, Keyed.mem_keys_setEntry, ih,
      or_assoc]
    constructor
    · rintro (⟨v, hv, hmeets⟩ | hmeets)
      · exact ⟨v, List.mem_append_left _ hv, hmeets⟩
      · exact ⟨u, List.mem_append_right _ List.mem_cons_self, hmeets⟩
    · rintro ⟨v, hv, hmeets⟩
      rcases List.mem_append.mp hv with hv | hv
      · exact Or.inl ⟨v, hv, hmeets⟩
      · obtain rfl := List.mem_singleton.mp hv
        exact Or.inr hmeets

theorem nodup_keys_nodeDrafts : ((draftOf publicNodes set).nodeDrafts.map Prod.fst).Nodup := by
  induction set using List.reverseRecOn with
  | nil => exact List.nodup_nil
  | append_singleton set u ih =>
    rw [draftOf_concat, set_nodeDrafts]
    exact Keyed.nodup_setEntry (Keyed.nodup_setEntry ih _ _) _ _

theorem netGraphNodeFromRouteEndpoint_id {endpoint : PublicRouteEndpoint}
    (node : Option PublicNode) (hne : endpoint.nodeId ≠ "")
    (hsafe : safeText endpoint.nodeId "" = endpoint.nodeId) :
    (netGraphNodeFromRouteEndpoint endpoint node).id = endpoint.nodeId := by
  unfold netGraphNodeFromRouteEndpoint
  dsimp only
  rw [hsafe, if_neg hne]

/-- A node is kept under its own ID. -/
theorem id_nodeDrafts (hproper : ∀ u ∈ set, Proper u) {entry : String × NetGraphNode}
    (h : entry ∈ (draftOf publicNodes set).nodeDrafts) : entry.2.id = entry.1 := by
  induction set using List.reverseRecOn with
  | nil => cases h
  | append_singleton set u ih =>
    have hu := hproper u (List.mem_append_right _ List.mem_cons_self)
    rw [draftOf_concat, set_nodeDrafts] at h
    rcases Keyed.mem_setEntry h with rfl | ⟨h, -⟩
    · rw [netGraphNodeFromRouteEndpoint_id _ hu.target.1 hu.target.2]
    · rcases Keyed.mem_setEntry h with rfl | ⟨h, -⟩
      · rw [netGraphNodeFromRouteEndpoint_id _ hu.source.1 hu.source.2]
      · exact ih (fun v hv => hproper v (List.mem_append_left _ hv)) h

end Draft

/-! ## The graph from the routes that are set -/

section Graph

variable (platform : Platform) (publicNodes : String → Option PublicNode)
  (set : List (String × SafeRoute))

/-- The node of an entry, with the routes that meet it. -/
def withRoutes (draft : GraphDraft) (entry : String × NetGraphNode) : NetGraphNode :=
  let routeIDs := sortedNames (draft.routeIDsByNode entry.2.id)
  { entry.2 with degree := routeIDs.length, routeIDs }

/-- The result of `buildNetGraphData` from what the loop leaves. -/
def graphOfDraft (draft : GraphDraft) : NetGraphData :=
  let graphNodes := ((draft.nodeDrafts.map (withRoutes draft)).filter
    fun node => 0 < node.degree).insertionSort fun a b => (compareNodes platform a b).isLE
  let graphEdges := (draft.edges.map Prod.snd).insertionSort fun a b => (compareEdges a b).isLE
  { nodes := graphNodes
    edges := graphEdges
    nodeByID := byID NetGraphNode.id graphNodes
    edgeByID := byID NetGraphEdge.id graphEdges }

theorem buildNetGraphData_eq (nodes : List PublicNode) (routes : List PublicRoute) :
    buildNetGraphData platform nodes routes =
      graphOfDraft platform
        (draftOf (byID PublicNode.id (nodes.filterMap (normalizePublicNode platform)))
          (routesSet (routes.filterMap usable))) := by
  rw [← foldl_setFresh, ← foldl_addRoute]
  rfl

theorem mem_edges (draft : GraphDraft) (edge : NetGraphEdge) :
    edge ∈ (graphOfDraft platform draft).edges ↔ ∃ entry ∈ draft.edges, entry.2 = edge := by
  show edge ∈ List.insertionSort _ _ ↔ _
  rw [List.mem_insertionSort, List.mem_map]

theorem mem_nodes (draft : GraphDraft) (node : NetGraphNode) :
    node ∈ (graphOfDraft platform draft).nodes ↔
      (∃ entry ∈ draft.nodeDrafts, withRoutes draft entry = node) ∧ 0 < node.degree := by
  show node ∈ List.insertionSort _ _ ↔ _
  rw [List.mem_insertionSort, List.mem_filter, List.mem_map, decide_eq_true_eq]

variable {set}

/-- Each node has an ID of its own, and is an end of a route that is set. -/
theorem nodup_ids_nodes (hproper : ∀ u ∈ set, Proper u) :
    ((graphOfDraft platform (draftOf publicNodes set)).nodes.map NetGraphNode.id).Nodup := by
  have hids : ((draftOf publicNodes set).nodeDrafts.map
      (withRoutes (draftOf publicNodes set))).map NetGraphNode.id =
        (draftOf publicNodes set).nodeDrafts.map Prod.fst := by
    rw [List.map_map]
    exact List.map_congr_left fun entry hentry => id_nodeDrafts publicNodes set hproper hentry
  have hnodup := nodup_keys_nodeDrafts publicNodes set
  rw [← hids] at hnodup
  refine (((List.perm_insertionSort _ _).map _).nodup_iff).mpr ?_
  exact hnodup.sublist (List.filter_sublist.map _)

/-- A node of the graph has the IDs of the routes that are set and meet it. -/
theorem node_spec {node : NetGraphNode}
    (h : node ∈ (graphOfDraft platform (draftOf publicNodes set)).nodes) :
    node.degree = node.routeIDs.length ∧ 0 < node.degree ∧ node.routeIDs.Nodup ∧
      ∀ id, id ∈ node.routeIDs ↔ ∃ u ∈ set, u.2.id = id ∧ Meets node.id u.2 := by
  obtain ⟨⟨entry, hentry, rfl⟩, hdegree⟩ := (mem_nodes platform _ _).mp h
  have hroutes : ∀ id, id ∈ sortedNames ((draftOf publicNodes set).routeIDsByNode entry.2.id) ↔
      ∃ u ∈ set, u.2.id = id ∧ Meets entry.2.id u.2 := by
    intro id
    unfold sortedNames
    rw [List.mem_insertionSort, List.mem_dedup, mem_routeIDsByNode]
  refine ⟨rfl, hdegree, ?_, hroutes⟩
  exact ((List.perm_insertionSort _ _).nodup_iff).mpr (List.nodup_dedup _)

/-- The ends of the routes that are set are nodes of the graph. -/
theorem exists_node (hproper : ∀ u ∈ set, Proper u) {u : String × SafeRoute} (hu : u ∈ set)
    {nodeID : String} (hmeets : Meets nodeID u.2) :
    ∃ node ∈ (graphOfDraft platform (draftOf publicNodes set)).nodes, node.id = nodeID := by
  obtain ⟨entry, hentry, hkey⟩ :=
    List.mem_map.mp ((mem_keys_nodeDrafts publicNodes set nodeID).mpr ⟨u, hu, hmeets⟩)
  have hid : entry.2.id = nodeID := (id_nodeDrafts publicNodes set hproper hentry).trans hkey
  refine ⟨withRoutes _ entry, (mem_nodes platform _ _).mpr ⟨⟨entry, hentry, rfl⟩, ?_⟩, hid⟩
  refine List.length_pos_of_mem (a := u.2.id) ?_
  unfold sortedNames
  rw [List.mem_insertionSort, List.mem_dedup, mem_routeIDsByNode]
  exact ⟨u, hu, rfl, hid ▸ hmeets⟩

end Graph

end CartoLive.Web.Graph
