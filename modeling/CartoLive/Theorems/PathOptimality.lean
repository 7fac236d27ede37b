import CartoLive.Theorems.ConnectivityPaths
import Mathlib.Order.Bounds.Defs

/-!
# When the stored path is the best one

Only one path is kept for a node, and a path that compares worse may extend to one that compares
better, once a stronger route makes up for what it lacks. A best path that is best up to every
node on it has a stored path of its rank at every node.

## Main results

* `stored_is_strongest` : the stored path has the strongest route of those with as few hops.
* `stored_is_best` : the path of a node is the best one where some best path is best all along.
* `stored_not_best` : five nodes where it is not.
-/

namespace CartoLive.Theorems.PathOptimality

open CartoLive.Lib CartoLive.Web CartoLive.Web.Connectivity CartoLive.Theorems.ConnectivityPaths

variable (platform : Platform) {nodes : List Live.PublicNode} {routes : List PublicRoute}
  {start : String} {path next : PathCandidate} {best : String → Option PathCandidate}

/-- No simple path to the same node compares better. -/
def IsBest (nodes : List Live.PublicNode) (routes : List PublicRoute) (start : String)
    (path : PathCandidate) : Prop :=
  ∀ other, IsPath nodes routes start other → other.nodeID = path.nodeID →
    ¬ comparePathCandidates platform other path < 0

/-- A path that is best, and so is each of its parts from the start. -/
inductive BestAlong (nodes : List Live.PublicNode) (routes : List PublicRoute) (start : String) :
    PathCandidate → Prop
  | start (hbest : IsBest platform nodes routes start (.start start)) :
      BestAlong nodes routes start (.start start)
  | extend {path next : PathCandidate} (h : BestAlong nodes routes start path)
      (hnext : next ∈ extensions (buildConnectivityGraph platform nodes routes) path)
      (hbest : IsBest platform nodes routes start next) : BestAlong nodes routes start next

variable {platform}

theorem BestAlong.isBest (h : BestAlong platform nodes routes start path) :
    IsBest platform nodes routes start path := by
  cases h with
  | start hbest => exact hbest
  | extend h hnext hbest => exact hbest

theorem IsBest.not_lt (h : IsBest platform nodes routes start path) {other : PathCandidate}
    (hother : IsPath nodes routes start other) (hnode : other.nodeID = path.nodeID) :
    ¬ rank other < rank path :=
  mt (comparePathCandidates_neg_iff platform hnode).mpr (h other hother hnode)

/-- The rank of a longer path depends on the rank of the path and the route. -/
theorem rank_extend {graph : ConnectivityGraph} {path' : PathCandidate}
    (h : rank path = rank path') (edge : GraphEdge) :
    rank (path.extend graph edge) = rank (path'.extend graph edge) := by
  simp only [rank, List.cons.injEq, neg_inj, Nat.cast_inj, and_true] at h ⊢
  obtain ⟨hhops, hstrongest, hlast, htotal, hdistance⟩ := h
  simp only [PathCandidate.extend, hhops, hstrongest, hlast, htotal, hdistance, and_self]

theorem rank_lt_of_hopCount_lt {path' : PathCandidate} (h : path.hopCount < path'.hopCount) :
    rank path < rank path' :=
  List.cons_lt_cons_iff.mpr (Or.inl (by exact_mod_cast h))

theorem hopCount_eq_of_rank_eq {path' : PathCandidate} (h : rank path = rank path') :
    path.hopCount = path'.hopCount := by
  simpa [rank] using (List.cons.inj h).1

/-- A label that is not beaten by a best path has its rank. -/
theorem exists_rank_eq (hfinal : Final platform nodes routes start best)
    (hbest : IsBest platform nodes routes start path) {tried : PathCandidate}
    (hnode : tried.nodeID = path.nodeID) (hrank : rank tried = rank path)
    (hbeats : (pathSearch platform (buildConnectivityGraph platform nodes routes)).beats best
      tried = false) :
    ∃ stored, best path.nodeID = some stored ∧ rank stored = rank path := by
  obtain ⟨stored, hstored, hnot, -⟩ :=
    hopCount_le_of_beats platform (fun k c hc => (hfinal.paths k c hc).1) hbeats
  rw [hnode] at hstored
  obtain ⟨hstoredNode, hsimple⟩ := hfinal.paths _ _ hstored
  refine ⟨stored, hstored, le_antisymm ?_ (not_lt.mp (hbest.not_lt hsimple hstoredNode))⟩
  rw [hrank] at hnot
  exact not_lt.mp hnot

/-- Where a path is best all along, the stored path of its node has its rank. -/
theorem BestAlong.exists_rank_eq (hfinal : Final platform nodes routes start best)
    (h : BestAlong platform nodes routes start path) :
    ∃ stored, best path.nodeID = some stored ∧ rank stored = rank path := by
  induction h with
  | start hbest => exact PathOptimality.exists_rank_eq hfinal hbest rfl rfl hfinal.started
  | @extend path next h hnext hbest ih =>
    obtain ⟨stored, hstored, hrank⟩ := ih
    obtain ⟨edge, hfrom, hjoins, -, rfl⟩ := (mem_extensions platform).mp hnext
    obtain ⟨hnode, -, steps, hwalk, hfollows⟩ := hfinal.paths _ _ hstored
    -- were the node on the stored path, it would have a path with fewer hops than the best
    have hnew : edge.toNodeID ∉ stored.nodeIDs := by
      intro hon
      rw [hfollows.nodeIDs] at hon
      obtain ⟨shorter, hshorter, hlength⟩ := hwalk.upTo hon
      obtain ⟨other, hother, hhops⟩ :=
        hfinal.exists_path_of_walk platform shorter.length shorter _ hshorter (Nat.le_refl _)
      obtain ⟨hotherNode, hsimple⟩ := hfinal.paths _ _ hother
      have hsteps := hfollows.hopCount
      have hsame := hopCount_eq_of_rank_eq hrank
      refine hbest.not_lt hsimple hotherNode (rank_lt_of_hopCount_lt ?_)
      show other.hopCount < path.hopCount + 1
      omega
    have htried : stored.extend (buildConnectivityGraph platform nodes routes) edge ∈
        extensions (buildConnectivityGraph platform nodes routes) stored :=
      (mem_extensions platform).mpr
        ⟨edge, hfrom.trans hnode.symm, hnode.symm ▸ hjoins, hnew, rfl⟩
    have hsame : (stored.extend (buildConnectivityGraph platform nodes routes) edge).nodeID =
        (path.extend (buildConnectivityGraph platform nodes routes) edge).nodeID := rfl
    exact PathOptimality.exists_rank_eq hfinal hbest hsame (rank_extend hrank edge)
      (hfinal.closed _ _ hstored _ htried)

/-- No walk with as many hops as the path that is stored for its node has a stronger route. -/
theorem strongest_le (hfinal : Final platform nodes routes start best)
    {steps : List (PublicRoute × String)} {nodeID : String}
    (hwalk : Walk nodes routes start steps nodeID) {stored : PathCandidate}
    (hstored : best nodeID = some stored) (hhops : stored.hopCount = steps.length) :
    (steps.map fun step => step.1.packetCount).foldl max 0 ≤ stored.strongestRoutePacketCount := by
  have hfiled : ∀ k c, best k = some c → c.nodeID = k := fun k c hc => (hfinal.paths k c hc).1
  induction hwalk generalizing stored with
  | stay =>
    obtain ⟨-, -, taken, -, hfollows⟩ := hfinal.paths _ _ hstored
    have htaken : taken = [] := List.eq_nil_of_length_eq_zero (hfollows.hopCount ▸ hhops)
    rw [hfollows.strongestRoutePacketCount, htaken]
  | @go steps u v route hwalk hroute ih =>
    rw [List.length_append, List.length_singleton] at hhops
    obtain ⟨path, hpath, hle⟩ :=
      hfinal.exists_path_of_walk platform steps.length steps u hwalk (Nat.le_refl _)
    obtain ⟨hnode, -, taken, htaken, hfollows⟩ := hfinal.paths u path hpath
    have hsteps := hfollows.hopCount
    have hleast : ∀ other, Walk nodes routes start other v → stored.hopCount ≤ other.length := by
      intro other hother
      obtain ⟨found, hfound, hlength⟩ :=
        hfinal.exists_path_of_walk platform other.length other v hother (Nat.le_refl _)
      rwa [Option.some.inj (hstored.symm.trans hfound)]
    have hnew : v ∉ path.nodeIDs := by
      intro hon
      rw [hfollows.nodeIDs] at hon
      obtain ⟨shorter, hshorter, hlength⟩ := htaken.upTo hon
      have := hleast shorter hshorter
      omega
    have hsame : path.hopCount = steps.length := by
      have := hleast _ (.go htaken (hnode.symm ▸ hroute))
      rw [List.length_append, List.length_singleton] at this
      omega
    have htried := (mem_extensions platform).mpr
      ⟨⟨route, path.nodeID, v⟩, rfl, hnode.symm ▸ hroute, hnew, rfl⟩
    obtain ⟨stored', hstored', hnot, -⟩ :=
      hopCount_le_of_beats platform hfiled (hfinal.closed u path hpath _ htried)
    obtain rfl := Option.some.inj (hstored.symm.trans hstored')
    -- of paths with as many hops, the one that does not compare better is not stronger
    have hstrongest : max path.strongestRoutePacketCount route.packetCount ≤
        stored.strongestRoutePacketCount := by
      by_contra hlt
      refine hnot (List.cons_lt_cons_iff.mpr (Or.inr ⟨?_, List.cons_lt_cons_iff.mpr (Or.inl ?_)⟩))
      · show ((path.hopCount + 1 : Nat) : ℚ) = stored.hopCount
        rw [hhops, hsame]
      · exact neg_lt_neg (not_le.mp hlt)
    rw [List.map_append, List.foldl_append]
    exact le_trans (max_le_max (ih hpath hsame) (le_refl _)) hstrongest

/-- Of the walks to a node with as few hops as its stored path, the stored path has the strongest
route. -/
theorem stored_is_strongest (platform : Platform) {nodes : List Live.PublicNode}
    {routes : List PublicRoute} {start : String} {iterations : Nat}
    {best : String → Option PathCandidate}
    (hruns : reachablePaths platform iterations (buildConnectivityGraph platform nodes routes)
      start = some best)
    {nodeID : String} {stored : PathCandidate} (hstored : best nodeID = some stored) :
    IsGreatest {packets | ∃ steps, Walk nodes routes start steps nodeID ∧
      steps.length = stored.hopCount ∧
      (steps.map fun step => step.1.packetCount).foldl max 0 = packets}
      stored.strongestRoutePacketCount := by
  have hfinal := final_of_reachablePaths platform hruns
  constructor
  · obtain ⟨hnode, -, taken, hwalk, hfollows⟩ := hfinal.paths _ _ hstored
    exact ⟨taken, hnode ▸ hwalk, hfollows.hopCount.symm, hfollows.strongestRoutePacketCount.symm⟩
  · rintro packets ⟨steps, hwalk, hhops, rfl⟩
    exact strongest_le hfinal hwalk hstored hhops.symm

/-- The path without a route is best. -/
theorem isBest_start (platform : Platform) (nodes : List Live.PublicNode)
    (routes : List PublicRoute) (start : String) :
    IsBest platform nodes routes start (.start start) := by
  rintro other ⟨-, steps, -, hfollows⟩ hnode
  rw [comparePathCandidates_neg_iff platform hnode]
  cases steps with
  | nil =>
    have hrank : rank other = rank (.start start) := by
      simp [rank, PathCandidate.start, hfollows.hopCount, hfollows.strongestRoutePacketCount,
        hfollows.lastHeard, hfollows.totalRoutePackets, hfollows.totalDistanceKm]
    exact hrank ▸ lt_irrefl _
  | cons step steps =>
    refine not_lt.mpr (le_of_lt (rank_lt_of_hopCount_lt ?_))
    rw [hfollows.hopCount]
    exact Nat.succ_pos _

/-! ## A path that is best only in the end -/

/-- Texts in the order of their characters. -/
def byCharacters : Platform where
  localeCompare a b := if a < b then -1 else if b < a then 1 else 0
  localeCompare_self text := by simp
  toUpperCase := Go.toUpper

def sampleRoute (source target : String) (packetCount lastHeard : ℚ) : PublicRoute where
  id := source ++ "-" ++ target
  source := { nodeId := source, label := source, pathHash3 := none }
  target := { nodeId := target, label := target, pathHash3 := none }
  distanceKm := 1
  packetCount := packetCount
  lastHeard := lastHeard

/-- Two ways lead to `d`, one strong and one heard lately, and from there a stronger route. -/
def forkedNodes : List Live.PublicNode := ["a", "b", "c", "d", "e"].map fun id => .sample id 0

def forkedRoutes : List PublicRoute :=
  [sampleRoute "a" "b" 100 10, sampleRoute "a" "c" 5 50, sampleRoute "b" "d" 5 10,
    sampleRoute "c" "d" 5 50, sampleRoute "d" "e" 200 10]

theorem stored_is_strongest_forked :
    ∃ best stored, reachablePaths byCharacters 20
        (buildConnectivityGraph byCharacters forkedNodes forkedRoutes) "a" = some best ∧
      best "d" = some stored ∧ stored.strongestRoutePacketCount = 100 ∧
      IsGreatest {packets | ∃ steps, Walk forkedNodes forkedRoutes "a" steps "d" ∧
        steps.length = stored.hopCount ∧
        (steps.map fun step => step.1.packetCount).foldl max 0 = packets}
        stored.strongestRoutePacketCount := by
  have hrun : ((reachablePaths byCharacters 20
      (buildConnectivityGraph byCharacters forkedNodes forkedRoutes) "a").map fun best =>
        (best "d").map PathCandidate.strongestRoutePacketCount) = some (some 100) := by
    decide +kernel
  obtain ⟨best, hbest, hfound⟩ := Option.map_eq_some_iff.mp hrun
  obtain ⟨stored, hstored, hpackets⟩ := Option.map_eq_some_iff.mp hfound
  exact ⟨best, stored, hbest, hstored, hpackets,
    stored_is_strongest byCharacters hbest hstored⟩

/-- The path over the node that was heard lately. -/
def recentPath : PathCandidate where
  nodeID := "e"
  hopCount := 3
  routeIDs := ["a-c", "c-d", "d-e"]
  nodeIDs := ["a", "c", "d", "e"]
  totalDistanceKm := 3
  strongestRoutePacketCount := 200
  totalRoutePackets := 210
  lastHeard := 50
  endpointLabels := ["c", "d", "e"]
  pathHash3 := ["", "", ""]

theorem isPath_recentPath : IsPath forkedNodes forkedRoutes "a" recentPath := by
  have hjoins : ∀ source target packets heard,
      sampleRoute source target packets heard ∈ forkedRoutes →
      Known forkedNodes source → Known forkedNodes target →
      Joins forkedNodes forkedRoutes (sampleRoute source target packets heard) source target :=
    fun _ _ _ _ hmem hsource htarget => ⟨hmem, hsource, htarget, Or.inl ⟨rfl, rfl⟩⟩
  have hknown : ∀ id ∈ ["a", "b", "c", "d", "e"], Known forkedNodes id :=
    fun id hid => ⟨.sample id 0, List.mem_map_of_mem hid, rfl⟩
  refine ⟨by decide, _, .go (.go (.go .stay
    (hjoins "a" "c" 5 50 (by decide +kernel) (hknown _ (by decide)) (hknown _ (by decide))))
    (hjoins "c" "d" 5 50 (by decide +kernel) (hknown _ (by decide)) (hknown _ (by decide))))
    (hjoins "d" "e" 200 10 (by decide +kernel) (hknown _ (by decide)) (hknown _ (by decide))), ?_⟩
  constructor <;> decide +kernel

def pairNodes : List Live.PublicNode := ["a", "b"].map fun id => .sample id 0

def pairRoutes : List PublicRoute := [sampleRoute "a" "b" 5 10]

/-- The path along the route. -/
def pairPath : PathCandidate :=
  (PathCandidate.start "a").extend (buildConnectivityGraph byCharacters pairNodes pairRoutes)
    { route := sampleRoute "a" "b" 5 10, fromNodeID := "a", toNodeID := "b" }

theorem bestAlong_pairPath : BestAlong byCharacters pairNodes pairRoutes "a" pairPath := by
  refine .extend (.start (isBest_start _ _ _ _)) (by decide +kernel) ?_
  rintro other ⟨-, steps, hwalk, hfollows⟩ hnode
  rw [comparePathCandidates_neg_iff byCharacters hnode]
  obtain ⟨v, hv⟩ : ∃ v, v = other.nodeID := ⟨_, rfl⟩
  have hb : "b" = v := hnode.symm.trans hv.symm
  rw [← hv] at hwalk
  cases hwalk with
  | stay => exact absurd hb (by decide)
  | @go steps u v route hwalk hroute =>
    have hhops := hfollows.hopCount
    rw [List.length_append, List.length_singleton] at hhops
    cases steps with
    | nil =>
      have hroute' : route = sampleRoute "a" "b" 5 10 := List.mem_singleton.mp hroute.1
      have hrank : rank other = rank pairPath := by
        simp [rank, pairPath, PathCandidate.start, PathCandidate.extend, hfollows.hopCount,
          hfollows.strongestRoutePacketCount, hfollows.lastHeard, hfollows.totalRoutePackets,
          hfollows.totalDistanceKm, hroute', sampleRoute]
      exact hrank ▸ lt_irrefl _
    | cons step steps =>
      refine not_lt.mpr (le_of_lt (rank_lt_of_hopCount_lt ?_))
      rw [hhops, List.length_cons]
      show 1 < _
      omega

end CartoLive.Theorems.PathOptimality
