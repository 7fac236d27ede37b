import CartoLive.Web.NetGraphDraft

/-!
# The network graph is well formed

The loop over the routes asks for the trimmed ID of a route among the IDs as they were written,
so that routes of one trimmed ID may leave several edges of that ID, or one edge and nodes that
count another. It is known for which routes that happens.

## Main results

* `Linked.neighborhood`: the selection of a node in a graph whose nodes know their edges.
* `setAgree_of_wellFormed`, `wellFormed_of_setAgree`: the graph of the routes that are set.
* `buildNetGraphData_wellFormed_iff`: the routes for which the graph is well formed.
-/

namespace CartoLive.Theorems.NetGraphForm

open CartoLive.Go CartoLive.Lib CartoLive.Web CartoLive.Web.Graph

/-! ## What is asked of the graph -/

/-- The edge meets the node. -/
def Incident (nodeID : String) (edge : NetGraphEdge) : Prop :=
  nodeID = edge.sourceID ∨ nodeID = edge.targetID

instance (nodeID : String) (edge : NetGraphEdge) : Decidable (Incident nodeID edge) :=
  inferInstanceAs (Decidable (_ ∨ _))

/-- The maps of a graph map each ID to exactly the item of the lists that carries it. -/
structure Indexed (graph : NetGraphData) : Prop where
  edgeIDs : (graph.edges.map NetGraphEdge.id).Nodup
  edgeByID : ∀ id edge, graph.edgeByID id = some edge ↔ edge ∈ graph.edges ∧ edge.id = id
  nodeByID : ∀ id node, graph.nodeByID id = some node ↔ node ∈ graph.nodes ∧ node.id = id

/-- The graph is made of the node, its neighbours and the edges that meet it. -/
structure Neighborhood (graph : NetGraphData) (nodeID : String) (part : NetGraphData) : Prop where
  indexed : Indexed part
  nodes : ∀ node, node ∈ part.nodes ↔ node ∈ graph.nodes ∧
    (node.id = nodeID ∨ ∃ edge ∈ graph.edges, Incident nodeID edge ∧ Incident node.id edge)
  edges : ∀ edge, edge ∈ part.edges ↔ edge ∈ graph.edges ∧ Incident nodeID edge

structure WellFormed (graph : NetGraphData) : Prop where
  indexed : Indexed graph
  ends : ∀ edge ∈ graph.edges, edge.sourceID ≠ edge.targetID ∧
    ∀ nodeID, Incident nodeID edge → (graph.nodeByID nodeID).isSome
  degree : ∀ node ∈ graph.nodes, node.degree = node.routeIDs.length ∧
    node.degree = (graph.edges.filter fun edge => Incident node.id edge).length ∧
    1 ≤ node.degree
  neighborhood : ∀ nodeID, Neighborhood graph nodeID (selectedNeighborhood graph nodeID)

/-- The routes join the same two nodes. -/
def SameEnds (a b : SafeRoute) : Prop :=
  a.source.nodeId = b.source.nodeId ∧ a.target.nodeId = b.target.nodeId ∨
    a.source.nodeId = b.target.nodeId ∧ a.target.nodeId = b.source.nodeId

/-- Of the usable routes of each trimmed ID, the first has it written so, or all have it written
alike and join the same two nodes. -/
def IDsAgree (routes : List PublicRoute) : Prop :=
  ∀ id, match (routes.filterMap usable).filter fun u => u.2.id = id with
    | [] => True
    | first :: rest => first.1 = id ∨ ∀ u ∈ rest, u.1 = first.1 ∧ SameEnds first.2 u.2

section Agree

variable {platform : Platform} {publicNodes : String → Option PublicNode}
  {set : List (String × SafeRoute)}

/-- Every edge is that of a route that is set. -/
theorem exists_set_of_edge {edge : NetGraphEdge}
    (h : edge ∈ (graphOfDraft platform (draftOf publicNodes set)).edges) :
    ∃ u ∈ set, edge = edgeOfRoute u.2 := by
  obtain ⟨entry, hentry, rfl⟩ := (mem_edges platform _ _).mp h
  obtain ⟨u, hu, rfl⟩ := edges_of_set publicNodes set hentry
  exact ⟨u, hu, rfl⟩

/-- Under the written ID of a route that is set stands an edge of its trimmed ID. -/
theorem exists_entry_of_set (publicNodes : String → Option PublicNode)
    (hproper : ∀ u ∈ set, Proper u) {u : String × SafeRoute} (hu : u ∈ set) :
    ∃ entry ∈ (draftOf publicNodes set).edges, entry.1 = u.1 ∧ entry.2.id = u.2.id := by
  obtain ⟨entry, hentry, hkey⟩ :=
    List.mem_map.mp ((mem_keys_edges publicNodes set u.1).mpr (List.mem_map_of_mem hu))
  obtain ⟨v, hv, rfl⟩ := edges_of_set publicNodes set hentry
  refine ⟨_, hentry, hkey, ?_⟩
  show v.2.id = u.2.id
  rw [(hproper v hv).id, (hproper u hu).id]
  exact congrArg trim hkey

theorem nodup_edgeIDs_iff (platform : Platform) (draft : GraphDraft) :
    ((graphOfDraft platform draft).edges.map NetGraphEdge.id).Nodup ↔
      (draft.edges.map fun entry => entry.2.id).Nodup := by
  refine (((List.perm_insertionSort _ _).map _).nodup_iff).trans ?_
  rw [List.map_map]
  exact Iff.rfl

/-- The degree of a node counts its edges when every route that meets it left one. -/
theorem degree_eq_iff
    (hnodup : ((graphOfDraft platform (draftOf publicNodes set)).edges.map NetGraphEdge.id).Nodup)
    {node : NetGraphNode} (h : node ∈ (graphOfDraft platform (draftOf publicNodes set)).nodes) :
    node.degree = ((graphOfDraft platform (draftOf publicNodes set)).edges.filter
        fun edge => Incident node.id edge).length ↔
      ∀ u ∈ set, Meets node.id u.2 →
        ∃ edge ∈ (graphOfDraft platform (draftOf publicNodes set)).edges,
          edge.id = u.2.id ∧ Incident node.id edge := by
  obtain ⟨hdegree, -, hroutes, hmem⟩ := node_spec platform publicNodes h
  have hids : (((graphOfDraft platform (draftOf publicNodes set)).edges.filter
      fun edge => Incident node.id edge).map NetGraphEdge.id).Nodup :=
    hnodup.sublist (List.filter_sublist.map _)
  have hsubset : ((graphOfDraft platform (draftOf publicNodes set)).edges.filter
      fun edge => Incident node.id edge).map NetGraphEdge.id ⊆ node.routeIDs := by
    intro id hid
    obtain ⟨edge, hedge, rfl⟩ := List.mem_map.mp hid
    obtain ⟨hedge, hincident⟩ := List.mem_filter.mp hedge
    obtain ⟨u, hu, rfl⟩ := exists_set_of_edge hedge
    have hmeets : Incident node.id (edgeOfRoute u.2) := of_decide_eq_true hincident
    exact (hmem _).mpr ⟨u, hu, rfl, hmeets⟩
  have hsubperm := List.subperm_of_subset hids hsubset
  rw [hdegree, ← List.length_map (f := NetGraphEdge.id)]
  constructor
  · intro hlength u hu hmeets
    have hperm := hsubperm.perm_of_length_le hlength.le
    obtain ⟨edge, hedge, hid⟩ :=
      List.mem_map.mp (hperm.mem_iff.mpr ((hmem u.2.id).mpr ⟨u, hu, rfl, hmeets⟩))
    obtain ⟨hedge, hincident⟩ := List.mem_filter.mp hedge
    exact ⟨edge, hedge, hid, of_decide_eq_true hincident⟩
  · intro hleft
    refine (List.subperm_of_subset hroutes fun id hid => ?_).length_le.antisymm
      hsubperm.length_le
    obtain ⟨u, hu, rfl, hmeets⟩ := (hmem id).mp hid
    obtain ⟨edge, hedge, hid, hincident⟩ := hleft u hu hmeets
    exact List.mem_map.mpr ⟨edge, List.mem_filter.mpr ⟨hedge, decide_eq_true hincident⟩, hid⟩

/-- The routes that are set with one ID are written alike and join the same two nodes. -/
def SetAgree (set : List (String × SafeRoute)) : Prop :=
  ∀ u ∈ set, ∀ v ∈ set, u.2.id = v.2.id → u.1 = v.1 ∧ SameEnds u.2 v.2

/-- Two pairs of different ends of which each of the first meets the second are the same. -/
theorem sameEnds_of_meets {a b : SafeRoute} (hends : a.source.nodeId ≠ a.target.nodeId)
    (h : ∀ nodeID, Meets nodeID a → Meets nodeID b) : SameEnds a b := by
  rcases h _ (Or.inl rfl) with hsource | hsource <;> rcases h _ (Or.inr rfl) with htarget | htarget
  · exact absurd (hsource.trans htarget.symm) hends
  · exact Or.inl ⟨hsource, htarget⟩
  · exact Or.inr ⟨hsource, htarget⟩
  · exact absurd (hsource.trans htarget.symm) hends

theorem SameEnds.meets {a b : SafeRoute} (h : SameEnds a b) (nodeID : String) :
    Meets nodeID a ↔ Meets nodeID b := by
  unfold Meets
  rcases h with ⟨hsource, htarget⟩ | ⟨hsource, htarget⟩
  · rw [hsource, htarget]
  · rw [hsource, htarget]
    exact or_comm

theorem SameEnds.symm {a b : SafeRoute} (h : SameEnds a b) : SameEnds b a := by
  rcases h with ⟨hsource, htarget⟩ | ⟨hsource, htarget⟩
  · exact Or.inl ⟨hsource.symm, htarget.symm⟩
  · exact Or.inr ⟨htarget.symm, hsource.symm⟩

theorem SameEnds.trans {a b c : SafeRoute} (h : SameEnds a b) (h' : SameEnds b c) :
    SameEnds a c := by
  unfold SameEnds at *
  rcases h with ⟨hs, ht⟩ | ⟨hs, ht⟩ <;> rcases h' with ⟨hs', ht'⟩ | ⟨hs', ht'⟩
  · exact Or.inl ⟨hs.trans hs', ht.trans ht'⟩
  · exact Or.inr ⟨hs.trans hs', ht.trans ht'⟩
  · exact Or.inr ⟨hs.trans ht', ht.trans hs'⟩
  · exact Or.inl ⟨hs.trans ht', ht.trans hs'⟩

/-- In a well-formed graph the routes of one ID agree: their IDs have one entry, and each of them
is counted at its ends. -/
theorem setAgree_of_wellFormed (hproper : ∀ u ∈ set, Proper u)
    (h : WellFormed (graphOfDraft platform (draftOf publicNodes set))) : SetAgree set := by
  have hentries := (nodup_edgeIDs_iff platform _).mp h.indexed.edgeIDs
  -- The one edge of an ID meets the ends of every route that is set with the ID.
  have hends : ∀ u ∈ set, ∀ edge ∈ (graphOfDraft platform (draftOf publicNodes set)).edges,
      edge.id = u.2.id → ∀ nodeID, Meets nodeID u.2 → Incident nodeID edge := by
    intro u hu edge hedge hid nodeID hmeets
    obtain ⟨node, hnode, rfl⟩ := exists_node platform publicNodes hproper hu hmeets
    obtain ⟨other, hother, hotherID, hincident⟩ :=
      (degree_eq_iff h.indexed.edgeIDs hnode).mp (h.degree node hnode).2.1 u hu hmeets
    have heq : other = edge :=
      List.inj_on_of_nodup_map h.indexed.edgeIDs hother hedge (hotherID.trans hid.symm)
    exact heq ▸ hincident
  intro u hu v hv hid
  obtain ⟨entry, hentry, hkey, hentryID⟩ := exists_entry_of_set publicNodes hproper hu
  obtain ⟨other, hother, hotherKey, hotherID⟩ := exists_entry_of_set publicNodes hproper hv
  have hsame : entry = other :=
    List.inj_on_of_nodup_map hentries hentry hother (hentryID.trans (hid.trans hotherID.symm))
  refine ⟨by rw [← hkey, ← hotherKey, hsame], ?_⟩
  have hedge := (mem_edges platform _ _).mpr ⟨entry, hentry, rfl⟩
  obtain ⟨w, hw, hwedge⟩ := exists_set_of_edge hedge
  have hfirst : SameEnds u.2 w.2 := by
    refine sameEnds_of_meets (hproper u hu).ends fun nodeID hmeets => ?_
    have hincident := hends u hu entry.2 hedge hentryID nodeID hmeets
    rwa [hwedge] at hincident
  have hsecond : SameEnds v.2 w.2 := by
    refine sameEnds_of_meets (hproper v hv).ends fun nodeID hmeets => ?_
    have hincident := hends v hv entry.2 hedge (hentryID.trans hid) nodeID hmeets
    rwa [hwedge] at hincident
  exact hfirst.trans hsecond.symm

end Agree

/-! ## The neighbourhood of a node -/

section Neighborhood

variable {graph : NetGraphData}

/-- What the selection of a node needs of the graph: nodes are told apart, the ends of edges are
nodes, and nodes know the IDs of their edges. -/
structure Linked (graph : NetGraphData) : Prop where
  indexed : Indexed graph
  nodeIDs : (graph.nodes.map NetGraphNode.id).Nodup
  ends : ∀ edge ∈ graph.edges, ∀ nodeID, Incident nodeID edge → (graph.nodeByID nodeID).isSome
  routeIDs : ∀ node ∈ graph.nodes, ∀ id, id ∈ node.routeIDs ↔
    ∃ edge ∈ graph.edges, edge.id = id ∧ Incident node.id edge

theorem Linked.mem_routeIDs (h : Linked graph) {node : NetGraphNode} (hnode : node ∈ graph.nodes)
    {edge : NetGraphEdge} (hedge : edge ∈ graph.edges) :
    edge.id ∈ node.routeIDs ↔ Incident node.id edge := by
  rw [h.routeIDs node hnode]
  constructor
  · rintro ⟨other, hother, hid, hincident⟩
    exact List.inj_on_of_nodup_map h.indexed.edgeIDs hother hedge hid ▸ hincident
  · intro hincident
    exact ⟨edge, hedge, rfl, hincident⟩

/-- The selected nodes are the node and the ends of its edges. -/
theorem Linked.mem_nodeIDs (h : Linked graph) {node : NetGraphNode} (hnode : node ∈ graph.nodes)
    (id : String) :
    id ∈ (selectionForNode graph node.id).nodeIDs ↔
      id = node.id ∨ ∃ edge ∈ graph.edges, Incident node.id edge ∧ Incident id edge := by
  have hfound : graph.nodeByID node.id = some node :=
    (h.indexed.nodeByID _ _).mpr ⟨hnode, rfl⟩
  unfold selectionForNode
  rw [hfound]
  dsimp only
  rw [List.mem_cons, List.mem_flatMap]
  refine or_congr_right ?_
  constructor
  · rintro ⟨edge, hedge, hid⟩
    obtain ⟨edgeID, hedgeID, hfind⟩ := List.mem_filterMap.mp hedge
    obtain ⟨hedge, rfl⟩ := (h.indexed.edgeByID _ _).mp hfind
    refine ⟨edge, hedge, (h.mem_routeIDs hnode hedge).mp hedgeID, ?_⟩
    rcases List.mem_cons.mp hid with hid | hid
    · exact Or.inl hid
    · exact Or.inr (List.mem_singleton.mp hid)
  · rintro ⟨edge, hedge, hincident, hid⟩
    refine ⟨edge, List.mem_filterMap.mpr ⟨edge.id, (h.mem_routeIDs hnode hedge).mpr hincident,
      (h.indexed.edgeByID _ _).mpr ⟨hedge, rfl⟩⟩, ?_⟩
    rcases hid with hid | hid
    · exact List.mem_cons.mpr (Or.inl hid)
    · exact List.mem_cons_of_mem _ (List.mem_singleton.mpr hid)

theorem Linked.neighborhood (h : Linked graph) (nodeID : String) :
    Neighborhood graph nodeID (selectedNeighborhood graph nodeID) := by
  unfold selectedNeighborhood
  cases hfound : graph.nodeByID nodeID with
  | none =>
    dsimp only
    have hnone : ∀ edge ∈ graph.edges, ¬ Incident nodeID edge := by
      intro edge hedge hincident
      have hsome := h.ends edge hedge nodeID hincident
      rw [hfound] at hsome
      cases hsome
    refine
      { indexed :=
          { edgeIDs := List.nodup_nil
            edgeByID := fun id edge => ⟨fun h => ?_, fun h => ?_⟩
            nodeByID := fun id node => ⟨fun h => ?_, fun h => ?_⟩ }
        nodes := fun node => ⟨fun h => ?_, ?_⟩
        edges := fun edge => ⟨fun h => ?_, fun ⟨hedge, hincident⟩ => ?_⟩ }
    · cases h
    · cases h.1
    · cases h
    · cases h.1
    · cases h
    · rintro ⟨hnode, hid | ⟨edge, hedge, hincident, -⟩⟩
      · rw [(h.indexed.nodeByID nodeID node).mpr ⟨hnode, hid⟩] at hfound
        cases hfound
      · exact absurd hincident (hnone edge hedge)
    · cases h
    · exact absurd hincident (hnone edge hedge)
  | some node =>
    dsimp only
    obtain ⟨hnode, rfl⟩ := (h.indexed.nodeByID _ _).mp hfound
    have hedges : ∀ edge ∈ graph.edges, Incident node.id edge →
        edge.sourceID ∈ (selectionForNode graph node.id).nodeIDs ∧
          edge.targetID ∈ (selectionForNode graph node.id).nodeIDs := by
      intro edge hedge hincident
      exact ⟨(h.mem_nodeIDs hnode _).mpr (Or.inr ⟨edge, hedge, hincident, Or.inl rfl⟩),
        (h.mem_nodeIDs hnode _).mpr (Or.inr ⟨edge, hedge, hincident, Or.inr rfl⟩)⟩
    have hedgeIDs : (selectionForNode graph node.id).edgeIDs = node.routeIDs := by
      unfold selectionForNode
      rw [hfound]
    have hnodup : ∀ p : NetGraphEdge → Bool,
        ((graph.edges.filter p).map NetGraphEdge.id).Nodup := fun p =>
      h.indexed.edgeIDs.sublist (List.filter_sublist.map _)
    have hnodup' : ∀ p : NetGraphNode → Bool,
        ((graph.nodes.filter p).map NetGraphNode.id).Nodup := fun p =>
      h.nodeIDs.sublist (List.filter_sublist.map _)
    refine
      { indexed :=
          { edgeIDs := hnodup _
            edgeByID := fun id edge => byID_eq_some_iff (hnodup _)
            nodeByID := fun id node => byID_eq_some_iff (hnodup' _) }
        nodes := fun other => ?_
        edges := fun edge => ?_ }
    · rw [List.mem_filter, decide_eq_true_eq, h.mem_nodeIDs hnode]
    · rw [List.mem_filter, decide_eq_true_eq, hedgeIDs]
      refine and_congr_right fun hedge => ?_
      rw [h.mem_routeIDs hnode hedge]
      exact ⟨And.left, fun hincident => ⟨hincident, hedges edge hedge hincident⟩⟩

end Neighborhood

/-! ## The graph is well formed -/

section WellFormed

variable {platform : Platform} {publicNodes : String → Option PublicNode}
  {set : List (String × SafeRoute)}

theorem wellFormed_of_setAgree (hproper : ∀ u ∈ set, Proper u) (h : SetAgree set) :
    WellFormed (graphOfDraft platform (draftOf publicNodes set)) := by
  have hentries : ((draftOf publicNodes set).edges.map fun entry => entry.2.id).Nodup := by
    refine List.Nodup.map_on ?_ (List.Nodup.of_map _ (nodup_keys_edges publicNodes set))
    intro entry hentry other hother hid
    obtain ⟨u, hu, rfl⟩ := edges_of_set publicNodes set hentry
    obtain ⟨v, hv, rfl⟩ := edges_of_set publicNodes set hother
    exact List.inj_on_of_nodup_map (nodup_keys_edges publicNodes set) hentry hother
      (h u hu v hv hid).1
  have hedgeIDs := (nodup_edgeIDs_iff platform _).mpr hentries
  have hnodeIDs := nodup_ids_nodes platform publicNodes hproper
  have hindexed : Indexed (graphOfDraft platform (draftOf publicNodes set)) :=
    { edgeIDs := hedgeIDs
      edgeByID := fun id edge => byID_eq_some_iff hedgeIDs
      nodeByID := fun id node => byID_eq_some_iff hnodeIDs }
  have hends : ∀ edge ∈ (graphOfDraft platform (draftOf publicNodes set)).edges,
      ∀ nodeID, Incident nodeID edge →
        ((graphOfDraft platform (draftOf publicNodes set)).nodeByID nodeID).isSome := by
    intro edge hedge nodeID hincident
    obtain ⟨u, hu, rfl⟩ := exists_set_of_edge hedge
    obtain ⟨node, hnode, rfl⟩ := exists_node platform publicNodes hproper hu hincident
    exact Option.isSome_of_eq_some ((hindexed.nodeByID _ _).mpr ⟨hnode, rfl⟩)
  -- Where the routes of one ID agree, the edge of the ID meets the ends of each of them.
  have hleft : ∀ nodeID, ∀ u ∈ set, Meets nodeID u.2 →
      ∃ edge ∈ (graphOfDraft platform (draftOf publicNodes set)).edges,
        edge.id = u.2.id ∧ Incident nodeID edge := by
    intro nodeID u hu hmeets
    obtain ⟨entry, hentry, -, hid⟩ := exists_entry_of_set publicNodes hproper hu
    obtain ⟨v, hv, rfl⟩ := edges_of_set publicNodes set hentry
    exact ⟨_, (mem_edges platform _ _).mpr ⟨_, hentry, rfl⟩, hid,
      ((h v hv u hu hid).2.meets nodeID).mpr hmeets⟩
  have hlinked : Linked (graphOfDraft platform (draftOf publicNodes set)) :=
    { indexed := hindexed
      nodeIDs := hnodeIDs
      ends := hends
      routeIDs := by
        intro node hnode id
        rw [(node_spec platform publicNodes hnode).2.2.2 id]
        constructor
        · rintro ⟨u, hu, rfl, hmeets⟩
          exact hleft node.id u hu hmeets
        · rintro ⟨edge, hedge, rfl, hincident⟩
          obtain ⟨u, hu, rfl⟩ := exists_set_of_edge hedge
          exact ⟨u, hu, rfl, hincident⟩ }
  refine
    { indexed := hindexed
      ends := fun edge hedge => ⟨?_, hends edge hedge⟩
      degree := fun node hnode => ?_
      neighborhood := hlinked.neighborhood }
  · obtain ⟨u, hu, rfl⟩ := exists_set_of_edge hedge
    exact (hproper u hu).ends
  · obtain ⟨hlength, hpos, -⟩ := node_spec platform publicNodes hnode
    exact ⟨hlength, (degree_eq_iff hedgeIDs hnode).mpr (hleft node.id), hpos⟩

end WellFormed

/-- Up to the first route with the written ID, which is kept. -/
def upTo (id : String) : List (String × SafeRoute) → List (String × SafeRoute)
  | [] => []
  | u :: us => if u.1 = id then [u] else u :: upTo id us

theorem upTo_of_not_mem {id : String} {us : List (String × SafeRoute)}
    (h : id ∉ us.map Prod.fst) : upTo id us = us := by
  induction us with
  | nil => rfl
  | cons u us ih =>
    rw [List.map_cons, List.mem_cons, not_or] at h
    rw [upTo, if_neg (Ne.symm h.1), ih h.2]

theorem mem_keys_upTo (id : String) (us : List (String × SafeRoute)) :
    id ∈ (upTo id us).map Prod.fst ↔ id ∈ us.map Prod.fst := by
  induction us with
  | nil => exact Iff.rfl
  | cons u us ih =>
    rw [upTo]
    split
    · rename_i hid
      rw [List.map_cons, List.map_cons, List.mem_cons, List.mem_cons]
      exact ⟨fun _ => Or.inl hid.symm, fun _ => Or.inl hid.symm⟩
    · rw [List.map_cons, List.map_cons, List.mem_cons, List.mem_cons, ih]

theorem upTo_singleton (id : String) (u : String × SafeRoute) : upTo id [u] = [u] := by
  rw [upTo, upTo, ite_self]

theorem upTo_concat (id : String) (us : List (String × SafeRoute)) (u : String × SafeRoute) :
    upTo id (us ++ [u]) = if id ∈ us.map Prod.fst then upTo id us else us ++ [u] := by
  induction us with
  | nil =>
    have hnil : id ∉ ([] : List (String × SafeRoute)).map Prod.fst := List.not_mem_nil
    rw [if_neg hnil]
    exact upTo_singleton id u
  | cons v us ih =>
    rw [List.cons_append, upTo, upTo, ih]
    by_cases hv : v.1 = id
    · rw [if_pos hv, if_pos hv, if_pos (List.mem_map.mpr ⟨v, List.mem_cons_self, hv⟩)]
    · have hkeys : id ∈ (v :: us).map Prod.fst ↔ id ∈ us.map Prod.fst := by
        rw [List.map_cons, List.mem_cons, or_iff_right (Ne.symm hv)]
      rw [if_neg hv, if_neg hv]
      by_cases hmem : id ∈ us.map Prod.fst
      · rw [if_pos hmem, if_pos (hkeys.mpr hmem)]
      · rw [if_neg hmem, if_neg fun h => hmem (hkeys.mp h)]

theorem mem_of_mem_routesSet {us : List (String × SafeRoute)} {u : String × SafeRoute}
    (h : u ∈ routesSet us) : u ∈ us := by
  induction us using List.reverseRecOn with
  | nil => cases h
  | append_singleton us v ih =>
    rw [routesSet_concat] at h
    split at h
    · exact List.mem_append_left _ (ih h)
    · rcases List.mem_append.mp h with h | h
      · exact List.mem_append_left _ (ih h)
      · exact List.mem_append_right _ h

/-- Of the routes of a trimmed ID those up to the first that has it written so are set. -/
theorem filter_routesSet {us : List (String × SafeRoute)} (hproper : ∀ u ∈ us, Proper u)
    {id : String} (hid : trim id = id) :
    (routesSet us).filter (fun u => u.2.id = id) = upTo id (us.filter fun u => u.2.id = id) := by
  induction us using List.reverseRecOn with
  | nil => rfl
  | append_singleton us u ih =>
    have hproper' : ∀ v ∈ us, Proper v := fun v hv => hproper v (List.mem_append_left _ hv)
    specialize ih hproper'
    rw [routesSet_concat, List.filter_append]
    by_cases hu : u.2.id = id
    · -- The route is passed over when one with the written ID is among those of the ID.
      have hkeys : u.2.id ∈ (routesSet us).map Prod.fst ↔
          id ∈ (us.filter fun u => u.2.id = id).map Prod.fst := by
        rw [← mem_keys_upTo id (us.filter fun u => u.2.id = id), ← ih, hu]
        constructor
        · intro h
          obtain ⟨v, hv, hkey⟩ := List.mem_map.mp h
          refine List.mem_map.mpr ⟨v, List.mem_filter.mpr ⟨hv, decide_eq_true ?_⟩, hkey⟩
          rw [(hproper' v (mem_of_mem_routesSet hv)).id, hkey, hid]
        · intro h
          obtain ⟨v, hv, hkey⟩ := List.mem_map.mp h
          exact List.mem_map.mpr ⟨v, (List.mem_filter.mp hv).1, hkey⟩
      have hone : [u].filter (fun u => decide (u.2.id = id)) = [u] :=
        List.filter_cons_of_pos (decide_eq_true hu)
      rw [hone, upTo_concat]
      by_cases hmem : u.2.id ∈ (routesSet us).map Prod.fst
      · rw [if_pos hmem, if_pos (hkeys.mp hmem), ih]
      · rw [if_neg hmem, if_neg fun h => hmem (hkeys.mpr h), List.filter_append, hone, ih,
          upTo_of_not_mem fun h => hmem (hkeys.mpr h)]
    · have hone : [u].filter (fun u => decide (u.2.id = id)) = [] :=
        List.filter_cons_of_neg fun h => hu (of_decide_eq_true h)
      rw [hone, List.append_nil, ← ih]
      split
      · rfl
      · rw [List.filter_append, hone, List.append_nil]

theorem SameEnds.refl (route : SafeRoute) : SameEnds route route := Or.inl ⟨rfl, rfl⟩

theorem agree_upTo_iff (id : String) (us : List (String × SafeRoute)) :
    (∀ u ∈ upTo id us, ∀ v ∈ upTo id us, u.1 = v.1 ∧ SameEnds u.2 v.2) ↔
      match us with
      | [] => True
      | first :: rest => first.1 = id ∨ ∀ u ∈ rest, u.1 = first.1 ∧ SameEnds first.2 u.2 := by
  cases us with
  | nil => exact ⟨fun _ => trivial, fun _ u hu => absurd hu List.not_mem_nil⟩
  | cons first rest =>
    dsimp only
    by_cases hfirst : first.1 = id
    · refine ⟨fun _ => Or.inl hfirst, fun _ u hu v hv => ?_⟩
      rw [upTo, if_pos hfirst, List.mem_singleton] at hu hv
      rw [hu, hv]
      exact ⟨rfl, SameEnds.refl _⟩
    · rw [upTo, if_neg hfirst]
      constructor
      · intro h
        have hrest : upTo id rest = rest := by
          refine upTo_of_not_mem fun hmem => hfirst ?_
          obtain ⟨v, hv, hkey⟩ := List.mem_map.mp ((mem_keys_upTo _ _).mpr hmem)
          exact (h first List.mem_cons_self v (List.mem_cons_of_mem _ hv)).1.trans hkey
        refine Or.inr fun u hu => ?_
        have hu' : u ∈ upTo id rest := by rwa [hrest]
        obtain ⟨hkey, hends⟩ := h first List.mem_cons_self u (List.mem_cons_of_mem _ hu')
        exact ⟨hkey.symm, hends⟩
      · intro h
        have hall : ∀ u ∈ first :: upTo id rest, u.1 = first.1 ∧ SameEnds first.2 u.2 := by
          have h := h.resolve_left hfirst
          have hrest : upTo id rest = rest := by
            refine upTo_of_not_mem fun hmem => hfirst ?_
            obtain ⟨v, hv, hkey⟩ := List.mem_map.mp hmem
            exact (h v hv).1.symm.trans hkey
          intro u hu
          rw [hrest] at hu
          rcases List.mem_cons.mp hu with rfl | hu
          · exact ⟨rfl, SameEnds.refl _⟩
          · exact h u hu
        intro u hu v hv
        exact ⟨(hall u hu).1.trans (hall v hv).1.symm, (hall u hu).2.symm.trans (hall v hv).2⟩

theorem setAgree_iff (routes : List PublicRoute) :
    SetAgree (routesSet (routes.filterMap usable)) ↔ IDsAgree routes := by
  have hproper : ∀ u ∈ routes.filterMap usable, Proper u := by
    intro u hu
    obtain ⟨route, -, hroute⟩ := List.mem_filterMap.mp hu
    exact usable_proper hroute
  have hgroups : SetAgree (routesSet (routes.filterMap usable)) ↔
      ∀ id, ∀ u ∈ (routesSet (routes.filterMap usable)).filter (fun u => u.2.id = id),
        ∀ v ∈ (routesSet (routes.filterMap usable)).filter (fun u => u.2.id = id),
          u.1 = v.1 ∧ SameEnds u.2 v.2 := by
    constructor
    · intro h id u hu v hv
      obtain ⟨hu, huid⟩ := List.mem_filter.mp hu
      obtain ⟨hv, hvid⟩ := List.mem_filter.mp hv
      exact h u hu v hv ((of_decide_eq_true huid).trans (of_decide_eq_true hvid).symm)
    · intro h u hu v hv hid
      exact h v.2.id u (List.mem_filter.mpr ⟨hu, decide_eq_true hid⟩) v
        (List.mem_filter.mpr ⟨hv, decide_eq_true rfl⟩)
  rw [hgroups]
  refine forall_congr' fun id => ?_
  by_cases hid : trim id = id
  · rw [filter_routesSet hproper hid]
    exact agree_upTo_iff id _
  · -- No usable route has an ID that is not trimmed.
    have hnone : (routes.filterMap usable).filter (fun u => u.2.id = id) = [] := by
      refine List.filter_eq_nil_iff.mpr fun u hu huid => hid ?_
      have huid : u.2.id = id := of_decide_eq_true huid
      rw [← huid, (hproper u hu).trimmed]
    have hnone' : (routesSet (routes.filterMap usable)).filter (fun u => u.2.id = id) = [] := by
      refine List.filter_eq_nil_iff.mpr fun u hu => ?_
      exact List.filter_eq_nil_iff.mp hnone u (mem_of_mem_routesSet hu)
    rw [hnone, hnone']
    exact ⟨fun _ => trivial, fun _ u hu => absurd hu List.not_mem_nil⟩

/-- The graph is well formed exactly when the routes of each trimmed ID agree: the first is
written without surrounding white space, or all are written alike and join the same two nodes. -/
theorem buildNetGraphData_wellFormed_iff (platform : Platform) (nodes : List PublicNode)
    (routes : List PublicRoute) :
    WellFormed (buildNetGraphData platform nodes routes) ↔ IDsAgree routes := by
  have hproper : ∀ u ∈ routesSet (routes.filterMap usable), Proper u := by
    intro u hu
    obtain ⟨route, -, hroute⟩ := List.mem_filterMap.mp (mem_of_mem_routesSet hu)
    exact usable_proper hroute
  rw [buildNetGraphData_eq, ← setAgree_iff]
  exact ⟨setAgree_of_wellFormed hproper, wellFormed_of_setAgree hproper⟩

/-- A route that is written with a blank in front of its ID, and the same route without. -/
def paddedRoutes : List PublicRoute :=
  [" r", "r"].map fun id =>
    { id
      source := some { nodeId := "a", label := "a", lat := .fin 50, lng := .fin (-100) }
      target := some { nodeId := "b", label := "b", lat := .fin 51, lng := .fin (-101) }
      distanceKm := .fin 132
      packetCount := .fin 3
      lastHeard := .fin 1700000000000
      payloadTypeNames := ["advert"] }

/-- The graph of the two has two edges of the ID `r`. -/
theorem buildNetGraphData_padded :
    ¬ ∀ (platform : Platform) (nodes : List PublicNode) (routes : List PublicRoute),
      WellFormed (buildNetGraphData platform nodes routes) := by
  intro h
  have hids := (h ⟨fun a b => compare a b, id⟩ [] paddedRoutes).indexed.edgeIDs
  have hedges : ((buildNetGraphData ⟨fun a b => compare a b, id⟩ [] paddedRoutes).edges.map
      NetGraphEdge.id) = ["r", "r"] := by decide +kernel
  rw [hedges] at hids
  cases hids with
  | cons hne _ => exact hne "r" List.mem_cons_self rfl

end CartoLive.Theorems.NetGraphForm
