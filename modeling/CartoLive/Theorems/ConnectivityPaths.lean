import CartoLive.Web.Connectivity
import Mathlib.Data.List.Lex
import Mathlib.Order.Lex

/-!
# Paths are valid and have the fewest hops

Paths of one node are compared by their numbers, lexicographically, and the hops come first.
At the end of the search no extension of a stored path has fewer hops than the path of its
node, so that along any walk the stored paths have no more hops than the walk so far.

## Main results

* `reachablePaths_minimal` : the search ends, which nodes have a path, what a path is, and
  that walking back takes as many hops.
-/

namespace CartoLive.Theorems.ConnectivityPaths

open CartoLive.Lib CartoLive.Web CartoLive.Web.Connectivity

variable (platform : Platform) {nodes : List Live.PublicNode} {routes : List PublicRoute}

/-! ## Comparison -/

/-- The numbers that paths of one node are compared by, the smaller the better. -/
def rank (path : PathCandidate) : List ℚ :=
  [path.hopCount, -path.strongestRoutePacketCount, -path.lastHeard, -path.totalRoutePackets,
    path.totalDistanceKm]

theorem firstNonzero_append_zero (xs : List ℚ) : firstNonzero (xs ++ [0]) = firstNonzero xs := by
  induction xs with
  | nil => rfl
  | cons x xs ih => rw [List.cons_append, firstNonzero, firstNonzero, ih]

/-- The first difference decides the lexicographic order. -/
theorem firstNonzero_sub_neg_iff {xs ys : List ℚ} (h : xs.length = ys.length) :
    firstNonzero (List.zipWith (· - ·) xs ys) < 0 ↔ xs < ys := by
  induction xs generalizing ys with
  | nil =>
    cases ys with
    | nil => simp [firstNonzero]
    | cons y ys => cases h
  | cons x xs ih =>
    cases ys with
    | nil => cases h
    | cons y ys =>
      rw [List.zipWith_cons_cons, firstNonzero, List.cons_lt_cons_iff]
      split
      · rename_i heq
        have hxy : x = y := sub_eq_zero.mp heq
        rw [ih (Nat.succ.inj h)]
        simp [hxy]
      · rename_i hne
        have hxy : x ≠ y := fun heq => hne (sub_eq_zero.mpr heq)
        rw [sub_neg]
        simp [hxy]

/-- Paths of one node are compared by their ranks. -/
theorem comparePathCandidates_neg_iff {left right : PathCandidate}
    (h : left.nodeID = right.nodeID) :
    comparePathCandidates platform left right < 0 ↔ rank left < rank right := by
  rw [← firstNonzero_sub_neg_iff (by rfl), ← firstNonzero_append_zero, comparePathCandidates, h,
    platform.localeCompare_self]
  simp [rank, neg_add_eq_sub]

theorem lawful_pathSearch (graph : ConnectivityGraph) : (pathSearch platform graph).Lawful where
  irrefl a := by
    refine decide_eq_false ?_
    rw [comparePathCandidates_neg_iff platform rfl]
    exact lt_irrefl (rank a)
  trans a b c hab hbc h h' := by
    have hnode : a.nodeID = b.nodeID := hab
    have hnode' : b.nodeID = c.nodeID := hbc
    refine decide_eq_true ?_
    rw [comparePathCandidates_neg_iff platform (hnode.trans hnode')]
    exact lt_trans ((comparePathCandidates_neg_iff platform hnode).mp (of_decide_eq_true h))
      ((comparePathCandidates_neg_iff platform hnode').mp (of_decide_eq_true h'))
  arrange_perm queue := List.perm_insertionSort _ queue

/-- A path that would not be stored has at least as many hops as the stored one. -/
theorem hopCount_le_of_beats {graph : ConnectivityGraph} {best : String → Option PathCandidate}
    {path : PathCandidate} (hfiled : ∀ k c, best k = some c → c.nodeID = k)
    (h : (pathSearch platform graph).beats best path = false) :
    ∃ stored, best path.nodeID = some stored ∧ ¬ rank path < rank stored ∧
      stored.hopCount ≤ path.hopCount := by
  obtain ⟨stored, hstored, hbetter⟩ := LabelSearch.beats_eq_false_iff.mp h
  have hnode : path.nodeID = stored.nodeID := (hfiled _ _ hstored).symm
  have hrank : ¬ rank path < rank stored := by
    rw [← comparePathCandidates_neg_iff platform hnode]
    exact of_decide_eq_false hbetter
  refine ⟨stored, hstored, hrank, ?_⟩
  by_contra hlt
  refine hrank (List.cons_lt_cons_iff.mpr (Or.inl ?_))
  exact_mod_cast Nat.lt_of_not_le hlt

/-! ## The graph -/

/-- Whether a node is in the list. -/
def Known (nodes : List Live.PublicNode) (nodeID : String) : Prop :=
  ∃ node ∈ nodes, node.id = nodeID

/-- A route between known nodes joins two nodes, in either direction. -/
def Joins (nodes : List Live.PublicNode) (routes : List PublicRoute) (route : PublicRoute)
    (u v : String) : Prop :=
  route ∈ routes ∧ Known nodes route.source.nodeId ∧ Known nodes route.target.nodeId ∧
    (route.source.nodeId = u ∧ route.target.nodeId = v ∨
      route.target.nodeId = u ∧ route.source.nodeId = v)

theorem Joins.symm {route : PublicRoute} {u v : String} (h : Joins nodes routes route u v) :
    Joins nodes routes route v u :=
  ⟨h.1, h.2.1, h.2.2.1, h.2.2.2.symm.imp And.symm And.symm⟩

theorem Joins.known {route : PublicRoute} {u v : String} (h : Joins nodes routes route u v) :
    Known nodes v := by
  obtain ⟨-, hsource, htarget, ⟨-, rfl⟩ | ⟨-, rfl⟩⟩ := h
  · exact htarget
  · exact hsource

theorem nodesByID_foldl (nodes : List Live.PublicNode) (byID : String → Option Live.PublicNode)
    (nodeID : String) :
    nodes.foldl (fun (byID : String → Option Live.PublicNode) node =>
        Function.update byID node.id (some node)) byID nodeID ≠ none ↔
      byID nodeID ≠ none ∨ Known nodes nodeID := by
  induction nodes generalizing byID with
  | nil => simp [Known]
  | cons node nodes ih =>
    rw [List.foldl_cons, ih]
    by_cases hnode : nodeID = node.id
    · subst hnode
      simp [Known]
    · rw [Function.update_of_ne hnode]
      simp [Known, Ne.symm hnode]

theorem mem_appendEdge {adjacency : String → List GraphEdge} {nodeID n : String}
    {edge e : GraphEdge} :
    e ∈ appendEdge adjacency nodeID edge n ↔ e ∈ adjacency n ∨ n = nodeID ∧ e = edge := by
  unfold appendEdge
  by_cases hn : n = nodeID
  · subst hn
    simp
  · simp [hn]

theorem nodesByID_addRoute (graph : ConnectivityGraph) (route : PublicRoute) :
    (addRoute platform graph route).nodesByID = graph.nodesByID := by
  unfold addRoute
  split
  · rfl
  · rfl

theorem mem_adjacency_addRoute {graph : ConnectivityGraph} {route : PublicRoute} {n : String}
    {e : GraphEdge} :
    e ∈ (addRoute platform graph route).adjacency n ↔ e ∈ graph.adjacency n ∨
      e.route = route ∧ e.fromNodeID = n ∧
        graph.nodesByID route.source.nodeId ≠ none ∧ graph.nodesByID route.target.nodeId ≠ none ∧
        (route.source.nodeId = n ∧ route.target.nodeId = e.toNodeID ∨
          route.target.nodeId = n ∧ route.source.nodeId = e.toNodeID) := by
  unfold addRoute
  split
  · rename_i hunknown
    refine ⟨Or.inl, fun h => h.resolve_right fun hadded => ?_⟩
    exact hunknown.elim hadded.2.2.1 hadded.2.2.2.1
  · rename_i hknown
    rw [not_or] at hknown
    rw [mem_appendEdge, mem_appendEdge, or_assoc]
    refine or_congr_right ?_
    obtain ⟨r, f, t⟩ := e
    simp only [GraphEdge.mk.injEq, hknown, ne_eq, not_false_eq_true, true_and]
    constructor
    · rintro (⟨rfl, rfl, rfl, rfl⟩ | ⟨rfl, rfl, rfl, rfl⟩)
      · exact ⟨rfl, rfl, Or.inl ⟨rfl, rfl⟩⟩
      · exact ⟨rfl, rfl, Or.inr ⟨rfl, rfl⟩⟩
    · rintro ⟨rfl, rfl, ⟨rfl, rfl⟩ | ⟨rfl, rfl⟩⟩
      · exact Or.inl ⟨rfl, rfl, rfl, rfl⟩
      · exact Or.inr ⟨rfl, rfl, rfl, rfl⟩

theorem mem_adjacency_foldl (routes : List PublicRoute) (graph : ConnectivityGraph) (n : String)
    (e : GraphEdge) :
    e ∈ (routes.foldl (addRoute platform) graph).adjacency n ↔ e ∈ graph.adjacency n ∨
      e.route ∈ routes ∧ e.fromNodeID = n ∧
        graph.nodesByID e.route.source.nodeId ≠ none ∧
        graph.nodesByID e.route.target.nodeId ≠ none ∧
        (e.route.source.nodeId = n ∧ e.route.target.nodeId = e.toNodeID ∨
          e.route.target.nodeId = n ∧ e.route.source.nodeId = e.toNodeID) := by
  induction routes generalizing graph with
  | nil => simp
  | cons route routes ih =>
    rw [List.foldl_cons, ih, nodesByID_addRoute, mem_adjacency_addRoute, or_assoc]
    refine or_congr_right ?_
    rw [List.mem_cons, or_and_right]
    refine or_congr_left (and_congr_right fun hroute => ?_)
    rw [hroute]

/-- The edges of a node are its routes, where both endpoints are known. -/
theorem mem_adjacency {n : String} {e : GraphEdge} :
    e ∈ (buildConnectivityGraph platform nodes routes).adjacency n ↔
      e.fromNodeID = n ∧ Joins nodes routes e.route n e.toNodeID := by
  unfold buildConnectivityGraph
  rw [(List.perm_insertionSort _ _).mem_iff, mem_adjacency_foldl]
  simp only [List.not_mem_nil, false_or, nodesByID_foldl, ne_eq, not_true_eq_false, Joins]
  tauto

/-! ## Walks -/

/-- A walk from the start along routes, as the routes and the nodes that they lead to. -/
inductive Walk (nodes : List Live.PublicNode) (routes : List PublicRoute) (start : String) :
    List (PublicRoute × String) → String → Prop
  | stay : Walk nodes routes start [] start
  | go {steps : List (PublicRoute × String)} {u v : String} {route : PublicRoute}
      (h : Walk nodes routes start steps u) (hroute : Joins nodes routes route u v) :
      Walk nodes routes start (steps ++ [(route, v)]) v

variable {start u v : String} {steps : List (PublicRoute × String)} {path : PathCandidate}

namespace Walk

theorem known (h : Walk nodes routes start steps v) :
    ∀ step ∈ steps, Known nodes step.2 := by
  induction h with
  | stay => nofun
  | go h hroute ih =>
    intro step hstep
    rcases List.mem_append.mp hstep with hstep | hstep
    · exact ih step hstep
    · rw [List.mem_singleton.mp hstep]
      exact hroute.known

/-- A node on a walk is reached by a walk that is no longer. -/
theorem upTo (h : Walk nodes routes start steps v) {w : String}
    (hw : w ∈ start :: steps.map Prod.snd) :
    ∃ before, Walk nodes routes start before w ∧ before.length ≤ steps.length := by
  induction h with
  | stay =>
    rw [List.mem_singleton.mp hw]
    exact ⟨[], stay, Nat.le_refl _⟩
  | @go steps u v route h hroute ih =>
    rw [List.map_append, ← List.cons_append, List.mem_append] at hw
    rcases hw with hw | hw
    · obtain ⟨before, hbefore, hle⟩ := ih hw
      rw [List.length_append, List.length_singleton]
      exact ⟨before, hbefore, by omega⟩
    · rw [List.mem_singleton.mp hw]
      exact ⟨_, go h hroute, Nat.le_refl _⟩

/-- A walk with a route in front. -/
theorem cons {route : PublicRoute} (hroute : Joins nodes routes route start u)
    (h : Walk nodes routes u steps v) : Walk nodes routes start ((route, u) :: steps) v := by
  induction h with
  | stay => exact go stay hroute
  | go h hnext ih => exact go ih hnext

theorem reverse (h : Walk nodes routes start steps v) :
    ∃ back, Walk nodes routes v back start ∧ back.length = steps.length := by
  induction h with
  | stay => exact ⟨[], stay, rfl⟩
  | @go steps u v route h hroute ih =>
    obtain ⟨back, hback, hlength⟩ := ih
    refine ⟨(route, u) :: back, cons hroute.symm hback, ?_⟩
    rw [List.length_cons, hlength, List.length_append, List.length_singleton]

end Walk

/-- A path is made of exactly the steps of a walk. -/
structure Follows (start : String) (steps : List (PublicRoute × String)) (path : PathCandidate) :
    Prop where
  hopCount : path.hopCount = steps.length
  routeIDs : path.routeIDs = steps.map fun step => step.1.id
  nodeIDs : path.nodeIDs = start :: steps.map Prod.snd
  totalDistanceKm : path.totalDistanceKm = (steps.map fun step => step.1.distanceKm).sum
  strongestRoutePacketCount :
    path.strongestRoutePacketCount = (steps.map fun step => step.1.packetCount).foldl max 0
  totalRoutePackets : path.totalRoutePackets = (steps.map fun step => step.1.packetCount).sum
  lastHeard : path.lastHeard = (steps.map fun step => step.1.lastHeard).foldl max 0

theorem Follows.extend (h : Follows start steps path) (graph : ConnectivityGraph)
    (edge : GraphEdge) :
    Follows start (steps ++ [(edge.route, edge.toNodeID)]) (path.extend graph edge) where
  hopCount := by simp [PathCandidate.extend, h.hopCount]
  routeIDs := by simp [PathCandidate.extend, h.routeIDs]
  nodeIDs := by simp [PathCandidate.extend, h.nodeIDs]
  totalDistanceKm := by simp [PathCandidate.extend, h.totalDistanceKm]
  strongestRoutePacketCount := by simp [PathCandidate.extend, h.strongestRoutePacketCount]
  totalRoutePackets := by simp [PathCandidate.extend, h.totalRoutePackets]
  lastHeard := by simp [PathCandidate.extend, h.lastHeard]

/-- A simple path from the start. -/
def IsPath (nodes : List Live.PublicNode) (routes : List PublicRoute) (start : String)
    (path : PathCandidate) : Prop :=
  path.nodeIDs.Nodup ∧
    ∃ steps, Walk nodes routes start steps path.nodeID ∧ Follows start steps path

theorem isPath_start (start : String) : IsPath nodes routes start (.start start) :=
  ⟨List.nodup_singleton start, [], .stay, ⟨rfl, rfl, rfl, rfl, rfl, rfl, rfl⟩⟩

/-- The routes of the last node to nodes that are not on the path extend it. -/
theorem mem_extensions {next : PathCandidate} :
    next ∈ extensions (buildConnectivityGraph platform nodes routes) path ↔
      ∃ edge : GraphEdge, edge.fromNodeID = path.nodeID ∧
        Joins nodes routes edge.route path.nodeID edge.toNodeID ∧
        edge.toNodeID ∉ path.nodeIDs ∧
        path.extend (buildConnectivityGraph platform nodes routes) edge = next := by
  simp only [extensions, List.mem_map, List.mem_filter, mem_adjacency, decide_eq_true_eq, and_assoc]

theorem IsPath.extend (h : IsPath nodes routes start path) :
    ∀ next ∈ extensions (buildConnectivityGraph platform nodes routes) path,
      IsPath nodes routes start next := by
  intro next hnext
  obtain ⟨edge, -, hjoins, hnew, rfl⟩ := (mem_extensions platform).mp hnext
  obtain ⟨hnodup, steps, hwalk, hfollows⟩ := h
  refine ⟨?_, _, .go hwalk hjoins, hfollows.extend _ edge⟩
  show (path.nodeIDs ++ [edge.toNodeID]).Nodup
  rw [List.nodup_append]
  refine ⟨hnodup, List.nodup_singleton _, fun a ha b hb hab => hnew ?_⟩
  rw [← List.mem_singleton.mp hb, ← hab]
  exact ha

/-- A simple path passes each known node once. -/
theorem IsPath.hopCount_le (h : IsPath nodes routes start path) : path.hopCount ≤ nodes.length := by
  obtain ⟨hnodup, steps, hwalk, hfollows⟩ := h
  rw [hfollows.nodeIDs] at hnodup
  have hsubset : start :: steps.map Prod.snd ⊆ start :: nodes.map Live.PublicNode.id := by
    refine List.cons_subset_cons start fun nodeID hmem => ?_
    obtain ⟨step, hstep, rfl⟩ := List.mem_map.mp hmem
    obtain ⟨node, hnode, hid⟩ := hwalk.known step hstep
    exact List.mem_map.mpr ⟨node, hnode, hid⟩
  have hle := (List.subperm_of_subset hnodup hsubset).length_le
  rw [List.length_cons, List.length_cons, List.length_map, List.length_map] at hle
  rw [hfollows.hopCount]
  omega

theorem of_mem_level {depth : Nat} :
    ∀ path ∈ (pathSearch platform (buildConnectivityGraph platform nodes routes)).level
      (.start start) depth, IsPath nodes routes start path ∧ path.hopCount = depth := by
  induction depth with
  | zero =>
    intro path hpath
    rw [List.mem_singleton.mp hpath]
    exact ⟨isPath_start start, rfl⟩
  | succ depth ih =>
    intro path hpath
    obtain ⟨before, hbefore, hpath⟩ := List.mem_flatMap.mp hpath
    obtain ⟨hsimple, hhops⟩ := ih before hbefore
    refine ⟨hsimple.extend platform path hpath, ?_⟩
    obtain ⟨edge, -, -, -, rfl⟩ := (mem_extensions platform).mp hpath
    show before.hopCount + 1 = depth + 1
    rw [hhops]

/-- There is no simple path with more hops than nodes. -/
theorem level_eq_nil (nodes : List Live.PublicNode) (routes : List PublicRoute) (start : String) :
    (pathSearch platform (buildConnectivityGraph platform nodes routes)).level (.start start)
      (nodes.length + 1) = [] := by
  refine List.eq_nil_iff_forall_not_mem.mpr fun path hpath => ?_
  obtain ⟨hsimple, hhops⟩ := of_mem_level platform path hpath
  have hle := hsimple.hopCount_le
  omega

/-! ## What is stored at the end -/

/-- What the search leaves: paths are simple, the start has one, and no extension of a stored
path compares better than the path that its node has. -/
structure Final (nodes : List Live.PublicNode) (routes : List PublicRoute) (start : String)
    (best : String → Option PathCandidate) : Prop where
  paths : ∀ nodeID path, best nodeID = some path →
    path.nodeID = nodeID ∧ IsPath nodes routes start path
  started : (pathSearch platform (buildConnectivityGraph platform nodes routes)).beats best
    (.start start) = false
  closed : ∀ nodeID path, best nodeID = some path →
    ∀ next ∈ extensions (buildConnectivityGraph platform nodes routes) path,
      (pathSearch platform (buildConnectivityGraph platform nodes routes)).beats best next = false

theorem final_of_reachablePaths {iterations : Nat} {best : String → Option PathCandidate}
    (h : reachablePaths platform iterations (buildConnectivityGraph platform nodes routes) start =
      some best) : Final platform nodes routes start best := by
  obtain ⟨hpaths, hstart, hclosed⟩ := LabelSearch.run_spec
    (lawful_pathSearch platform (buildConnectivityGraph platform nodes routes))
    (isPath_start start) (fun path hpath => hpath.extend platform) h
  exact ⟨hpaths, hstart, hclosed⟩

theorem exists_reachablePaths (nodes : List Live.PublicNode) (routes : List PublicRoute)
    (start : String) :
    ∃ best least, ∀ iterations, least ≤ iterations →
      reachablePaths platform iterations (buildConnectivityGraph platform nodes routes) start =
        some best :=
  LabelSearch.exists_run (lawful_pathSearch platform _) (level_eq_nil platform nodes routes start)

/-- Along a walk every node has a path with no more hops than the walk. -/
theorem Final.exists_path_of_walk {best : String → Option PathCandidate}
    (h : Final platform nodes routes start best) (bound : Nat) :
    ∀ steps nodeID, Walk nodes routes start steps nodeID → steps.length ≤ bound →
      ∃ path, best nodeID = some path ∧ path.hopCount ≤ steps.length := by
  have hfiled : ∀ k c, best k = some c → c.nodeID = k := fun k c hc => (h.paths k c hc).1
  induction bound with
  | zero =>
    intro steps nodeID hwalk hle
    cases hwalk with
    | stay =>
      obtain ⟨stored, hstored, -, hhops⟩ := hopCount_le_of_beats platform hfiled h.started
      exact ⟨stored, hstored, hhops⟩
    | go hwalk hroute =>
      rw [List.length_append, List.length_singleton] at hle
      omega
  | succ bound ih =>
    intro steps nodeID hwalk hle
    cases hwalk with
    | stay =>
      obtain ⟨stored, hstored, -, hhops⟩ := hopCount_le_of_beats platform hfiled h.started
      exact ⟨stored, hstored, hhops⟩
    | @go steps u v route hwalk hroute =>
      rw [List.length_append, List.length_singleton] at hle ⊢
      obtain ⟨path, hpath, hhops⟩ := ih steps u hwalk (by omega)
      obtain ⟨hnode, -, before, hbefore, hfollows⟩ := h.paths u path hpath
      by_cases hon : nodeID ∈ path.nodeIDs
      · -- the node is on the path of the node before it, which is no longer than the walk
        rw [hfollows.nodeIDs] at hon
        obtain ⟨shorter, hshorter, hlength⟩ := hbefore.upTo hon
        have hsteps := hfollows.hopCount
        obtain ⟨stored, hstored, hstoredHops⟩ := ih shorter nodeID hshorter (by omega)
        exact ⟨stored, hstored, by omega⟩
      · have hnext := (mem_extensions platform).mpr
          ⟨⟨route, path.nodeID, nodeID⟩, rfl, hnode.symm ▸ hroute, hon, rfl⟩
        obtain ⟨stored, hstored, -, hstoredHops⟩ :=
          hopCount_le_of_beats platform hfiled (h.closed u path hpath _ hnext)
        refine ⟨stored, hstored, ?_⟩
        have hextended : stored.hopCount ≤ path.hopCount + 1 := hstoredHops
        omega

/-- Which nodes have a path at the end, and what a path is. -/
theorem reachablePaths_spec (nodes : List Live.PublicNode) (routes : List PublicRoute)
    (start : String) :
    ∃ best least, (∀ iterations, least ≤ iterations →
        reachablePaths platform iterations (buildConnectivityGraph platform nodes routes) start =
          some best) ∧
      (∀ nodeID, best nodeID ≠ none ↔ ∃ steps, Walk nodes routes start steps nodeID) ∧
      ∀ nodeID path, best nodeID = some path →
        path.nodeID = nodeID ∧ path.nodeIDs.Nodup ∧
        (∃ steps, Walk nodes routes start steps nodeID ∧ Follows start steps path) ∧
        ∀ steps, Walk nodes routes start steps nodeID → path.hopCount ≤ steps.length := by
  obtain ⟨best, least, hruns⟩ := exists_reachablePaths platform nodes routes start
  have hfinal := final_of_reachablePaths platform (hruns least (Nat.le_refl _))
  have hwalks : ∀ steps nodeID, Walk nodes routes start steps nodeID →
      ∃ path, best nodeID = some path ∧ path.hopCount ≤ steps.length := fun steps nodeID hwalk =>
    hfinal.exists_path_of_walk platform steps.length steps nodeID hwalk (Nat.le_refl _)
  refine ⟨best, least, hruns, fun nodeID => ⟨fun hsome => ?_, ?_⟩, fun nodeID path hpath => ?_⟩
  · obtain ⟨path, hpath⟩ := Option.ne_none_iff_exists'.mp hsome
    obtain ⟨rfl, -, steps, hwalk, -⟩ := hfinal.paths nodeID path hpath
    exact ⟨steps, hwalk⟩
  · rintro ⟨steps, hwalk⟩
    obtain ⟨path, hpath, -⟩ := hwalks steps nodeID hwalk
    rw [hpath]
    exact Option.some_ne_none path
  · obtain ⟨rfl, hnodup, steps, hwalk, hfollows⟩ := hfinal.paths nodeID path hpath
    refine ⟨rfl, hnodup, ⟨steps, hwalk, hfollows⟩, fun other hother => ?_⟩
    obtain ⟨stored, hstored, hle⟩ := hwalks other _ hother
    rwa [Option.some.inj (hpath.symm.trans hstored)]

/-! ## There and back -/

/-- The hops that `shortestPathBetween` finds. -/
def hopsBetween (iterations : Nat) (graph : ConnectivityGraph) (a b : Option String) :
    Option (Option Nat) :=
  (shortestPathBetween platform iterations graph a b).map (Option.map ReachableNode.hopCount)

/-- Whether `shortestPathBetween` searches for a path. -/
def Searches (graph : ConnectivityGraph) (a b : String) : Prop :=
  ¬ (a = "" ∨ b = "" ∨ a = b ∨ graph.nodesByID a = none ∨ graph.nodesByID b = none)

theorem searches_comm {graph : ConnectivityGraph} {a b : String} :
    Searches graph a b ↔ Searches graph b a := by
  unfold Searches
  rw [eq_comm (a := a) (b := b)]
  tauto

theorem hopsBetween_of_searches {graph : ConnectivityGraph} {a b : String} {iterations : Nat}
    {best : String → Option PathCandidate} (h : Searches graph a b)
    (hruns : reachablePaths platform iterations graph a = some best) :
    hopsBetween platform iterations graph (some a) (some b) =
      some ((best b).map PathCandidate.hopCount) := by
  obtain ⟨node, hnode⟩ : ∃ node, graph.nodesByID b = some node :=
    Option.ne_none_iff_exists'.mp fun hnone => h (Or.inr (Or.inr (Or.inr (Or.inr hnone))))
  unfold hopsBetween shortestPathBetween
  dsimp only
  rw [if_neg h, hruns, hnode, Option.map_some, Option.map_some]
  cases best b with
  | none => rfl
  | some path => rfl

theorem hopsBetween_of_not_searches {graph : ConnectivityGraph} {a b : String} (iterations : Nat)
    (h : ¬ Searches graph a b) :
    hopsBetween platform iterations graph (some a) (some b) = some none := by
  unfold hopsBetween shortestPathBetween
  dsimp only
  rw [if_pos (not_not.mp h)]
  rfl

/-- A walk back is as long, so that the fewest hops are the same in both directions. -/
theorem hopsBetween_comm (nodes : List Live.PublicNode) (routes : List PublicRoute)
    (a b : Option String) :
    ∃ least, ∀ iterations, least ≤ iterations → ∃ hops,
      hopsBetween platform iterations (buildConnectivityGraph platform nodes routes) a b =
        some hops ∧
      hopsBetween platform iterations (buildConnectivityGraph platform nodes routes) b a =
        some hops := by
  cases a with
  | none => exact ⟨0, fun _ _ => ⟨none, rfl, by cases b <;> rfl⟩⟩
  | some a =>
    cases b with
    | none => exact ⟨0, fun _ _ => ⟨none, rfl, rfl⟩⟩
    | some b =>
      by_cases h : Searches (buildConnectivityGraph platform nodes routes) a b
      · obtain ⟨there, m, hm, hthere, hthere'⟩ := reachablePaths_spec platform nodes routes a
        obtain ⟨back, n, hn, hback, hback'⟩ := reachablePaths_spec platform nodes routes b
        refine ⟨max m n, fun iterations hiterations =>
          ⟨(there b).map PathCandidate.hopCount, ?_, ?_⟩⟩
        · exact hopsBetween_of_searches platform h (hm iterations (by omega))
        · rw [hopsBetween_of_searches platform (searches_comm.mp h) (hn iterations (by omega))]
          congr 1
          cases hb : there b with
          | none =>
            cases ha : back a with
            | none => rfl
            | some path =>
              obtain ⟨steps, hwalk⟩ := (hback a).mp (by rw [ha]; exact Option.some_ne_none path)
              obtain ⟨reversed, hreversed, -⟩ := hwalk.reverse
              exact absurd hb ((hthere b).mpr ⟨reversed, hreversed⟩)
          | some path =>
            obtain ⟨-, -, ⟨steps, hwalk, hfollows⟩, hleast⟩ := hthere' b path hb
            obtain ⟨reversed, hreversed, hlength⟩ := hwalk.reverse
            obtain ⟨path', ha⟩ :=
              Option.ne_none_iff_exists'.mp ((hback a).mpr ⟨reversed, hreversed⟩)
            obtain ⟨-, -, ⟨steps', hwalk', hfollows'⟩, hleast'⟩ := hback' a path' ha
            obtain ⟨reversed', hreversed', hlength'⟩ := hwalk'.reverse
            have hle := hleast reversed' hreversed'
            have hle' := hleast' reversed hreversed
            have hhops := hfollows.hopCount
            have hhops' := hfollows'.hopCount
            rw [ha, Option.map_some, Option.map_some]
            congr 1
            omega
      · have hback : ¬ Searches (buildConnectivityGraph platform nodes routes) b a :=
          fun hback => h (searches_comm.mp hback)
        exact ⟨0, fun iterations _ => ⟨none, hopsBetween_of_not_searches platform iterations h,
          hopsBetween_of_not_searches platform iterations hback⟩⟩

end CartoLive.Theorems.ConnectivityPaths
