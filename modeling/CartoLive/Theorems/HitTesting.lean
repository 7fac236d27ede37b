import CartoLive.Web.NetGraphPrepared
import Mathlib.Analysis.SpecialFunctions.Log.Basic

/-!
# Hit tests by cells

A node within its tolerance of a point, and an edge within the threshold, have bounds that
reach the bounds of the query: a node because its own radius widens them, an edge because its
curve, and so every piece of its polygon, stays within the bounds of its ends and its control
point. The cells then miss neither, and the test finds what a scan of the whole graph finds.

Every edge has the same threshold, so that the edge that is found is the nearest of all. The
tolerance of a node grows with its radius: a small node outside of its tolerance may be nearer
than the node that is found.

## Main results

* `hits_agree_with_scan`: both tests agree with a scan, and the edge that is found is the
  nearest of all edges.
* `hit_node_not_nearest`: the node that is found need not be the nearest of all nodes.
-/

namespace CartoLive.Theorems.HitTesting

open CartoLive.Lib
open CartoLive.Lib.Segments (Point along part_bounds)
open CartoLive.Web.NetGraph

variable {K : Type*} [Field K] [LinearOrder K] [IsStrictOrderedRing K] [FloorRing K]
variable (math : MathFunctions K)

/-- A graph from the worker, or one whose edges were refreshed after a node was moved. -/
def Built (graph : PreparedNetGraph K) : Prop :=
  (∃ simNodes simLinks, graph = preparedGraphFromSettledGraph math simNodes simLinks) ∨
    ∃ moved, graph = refreshPreparedEdgeGeometry math moved

/-! ## Bounds of edges -/

/-- The bounds have both ends of the edge and its control point. -/
def Covers (edge : PreparedNetGraphEdge K) (source target : PreparedNetGraphNode K) : Prop :=
  (edgeBounds edge).Has source.x source.y ∧ (edgeBounds edge).Has target.x target.y ∧
    (edgeBounds edge).Has edge.controlX edge.controlY

/-- What both builders establish. -/
structure Indexed (graph : PreparedNetGraph K) : Prop where
  nodes_filed : graph.nodeSpatialIndex = createNodeSpatialIndex graph.nodes
  edges_filed : graph.edgeSpatialIndex = createEdgeSpatialIndex graph.edges
  covered : ∀ edge ∈ graph.edges, ∀ source target,
    graph.nodes[edge.sourceIndex]? = some source →
    graph.nodes[edge.targetIndex]? = some target → Covers edge source target

omit [FloorRing K] in
theorem covers_withGeometry (edge : PreparedNetGraphEdge K)
    (source target : PreparedNetGraphNode K) (control : Point K) :
    Covers (withGeometry edge source target control) source target := by
  have hpadding : (0 : K) ≤ max 16 (edge.width + 10) :=
    le_trans (by norm_num) (le_max_left 16 (edge.width + 10))
  have hlow : ∀ u v w : K, min (min u v) w ≤ u ∧ min (min u v) w ≤ v ∧ min (min u v) w ≤ w :=
    fun u v w => ⟨(min_le_left _ w).trans (min_le_left u v),
      (min_le_left _ w).trans (min_le_right u v), min_le_right _ w⟩
  have hhigh : ∀ u v w : K, u ≤ max (max u v) w ∧ v ≤ max (max u v) w ∧ w ≤ max (max u v) w :=
    fun u v w => ⟨(le_max_left u v).trans (le_max_left _ w),
      (le_max_right u v).trans (le_max_left _ w), le_max_right _ w⟩
  have hx := hlow source.x target.x control.x
  have hx' := hhigh source.x target.x control.x
  have hy := hlow source.y target.y control.y
  have hy' := hhigh source.y target.y control.y
  refine ⟨⟨⟨?_, ?_⟩, ?_, ?_⟩, ⟨⟨?_, ?_⟩, ?_, ?_⟩, ⟨?_, ?_⟩, ?_, ?_⟩ <;>
    simp only [edgeBounds, withGeometry] <;> linarith

theorem indexed_refresh (graph : PreparedNetGraph K) :
    Indexed (refreshPreparedEdgeGeometry math graph) := by
  refine ⟨rfl, rfl, ?_⟩
  intro edge hedge source target hsource htarget
  obtain ⟨old, -, rfl⟩ := List.mem_map.mp hedge
  have hends : (refreshEdge math graph.nodes old).sourceIndex = old.sourceIndex ∧
      (refreshEdge math graph.nodes old).targetIndex = old.targetIndex := by
    unfold refreshEdge
    split <;> exact ⟨rfl, rfl⟩
  rw [hends.1] at hsource
  rw [hends.2] at htarget
  have hold : graph.nodes[old.sourceIndex]? = some source := hsource
  have hold' : graph.nodes[old.targetIndex]? = some target := htarget
  simp only [refreshEdge, hold, hold']
  exact covers_withGeometry old source target _

theorem indexed_prepared (simNodes : List (SimNode K)) (simLinks : List (SimLink K)) :
    Indexed (preparedGraphFromSettledGraph math simNodes simLinks) := by
  refine ⟨rfl, rfl, ?_⟩
  intro edge hedge source target hsource htarget
  obtain ⟨link, -, hlink⟩ := List.mem_filterMap.mp hedge
  unfold preparedEdge at hlink
  split at hlink
  · split at hlink
    · next hs ht =>
      cases hlink
      cases hs.symm.trans hsource
      cases ht.symm.trans htarget
      exact covers_withGeometry _ _ _ _
    · cases hlink
  · cases hlink

theorem Built.indexed {graph : PreparedNetGraph K} (h : Built math graph) : Indexed graph := by
  rcases h with ⟨simNodes, simLinks, rfl⟩ | ⟨moved, rfl⟩
  · exact indexed_prepared math simNodes simLinks
  · exact indexed_refresh math moved

/-! ## The curve stays within the bounds -/

omit [FloorRing K] in
theorem curve_bounds {lo hi u v w t : K} (ht : 0 ≤ t) (ht' : t ≤ 1) (hu : lo ≤ u ∧ u ≤ hi)
    (hv : lo ≤ v ∧ v ≤ hi) (hw : lo ≤ w ∧ w ≤ hi) :
    lo ≤ (1 - t) * (1 - t) * u + 2 * (1 - t) * t * v + t * t * w ∧
      (1 - t) * (1 - t) * u + 2 * (1 - t) * t * v + t * t * w ≤ hi := by
  have hleft := part_bounds ht ht' hu.1 hu.2 hv.1 hv.2
  have hright := part_bounds ht ht' hv.1 hv.2 hw.1 hw.2
  have hpoint := part_bounds ht ht' hleft.1 hleft.2 hright.1 hright.2
  -- a point of the curve is between two points between its ends and the control point
  have heq : (1 - t) * (1 - t) * u + 2 * (1 - t) * t * v + t * t * w =
      u + t * (v - u) + t * (v + t * (w - v) - (u + t * (v - u))) := by ring
  rw [heq]
  exact hpoint

omit [FloorRing K] in
theorem has_pointOnPreparedEdge {edge : PreparedNetGraphEdge K}
    {source target : PreparedNetGraphNode K} (h : Covers edge source target) (progress : K) :
    (edgeBounds edge).Has (pointOnPreparedEdge source target edge progress).x
      (pointOnPreparedEdge source target edge progress).y := by
  have ht : (0 : K) ≤ max 0 (min 1 progress) := le_max_left _ _
  have ht' : max 0 (min 1 progress) ≤ (1 : K) := max_le zero_le_one (min_le_left _ _)
  exact ⟨curve_bounds ht ht' h.1.1 h.2.2.1 h.2.1.1, curve_bounds ht ht' h.1.2 h.2.2.2 h.2.1.2⟩

omit [FloorRing K] in
theorem has_along {bounds : Bounds K} {a b : Point K} (ha : bounds.Has a.x a.y)
    (hb : bounds.Has b.x b.y) {t : K} (ht : 0 ≤ t) (ht' : t ≤ 1) :
    bounds.Has (along a b t).x (along a b t).y :=
  ⟨part_bounds ht ht' ha.1.1 ha.1.2 hb.1.1 hb.1.2, part_bounds ht ht' ha.2.1 ha.2.2 hb.2.1 hb.2.2⟩

/-! ## Distances bound both coordinates -/

omit [FloorRing K] in
theorem abs_le_hypot (x y : K) : |x| ≤ math.hypot x y ∧ |y| ≤ math.hypot x y := by
  have hsq := math.hypot_mul_self x y
  constructor
  · refine abs_le_of_sq_le_sq ?_ (math.hypot_nonneg x y)
    nlinarith [mul_self_nonneg y]
  · refine abs_le_of_sq_le_sq ?_ (math.hypot_nonneg x y)
    nlinarith [mul_self_nonneg x]

omit [FloorRing K] in
/-- The distance to a segment is the distance to one of its points. -/
theorem exists_foot (point a b : Point K) :
    ∃ t, 0 ≤ t ∧ t ≤ 1 ∧ distanceToSegment math point a b =
      math.hypot (point.x - (along a b t).x) (point.y - (along a b t).y) := by
  unfold distanceToSegment
  dsimp only
  split
  · refine ⟨0, le_rfl, zero_le_one, ?_⟩
    rw [Segments.along_zero]
  · exact ⟨_, le_max_left _ _, max_le zero_le_one (min_le_left _ _), rfl⟩

/-- A point of the bounds is within a distance of the given one in both coordinates. -/
def Near (bounds : Bounds K) (point : Point K) (distance : K) : Prop :=
  ∃ q : Point K, bounds.Has q.x q.y ∧ |point.x - q.x| ≤ distance ∧ |point.y - q.y| ≤ distance

omit [FloorRing K] in
theorem near_of_distanceToSegment {bounds : Bounds K} {point a b : Point K} {distance : K}
    (ha : bounds.Has a.x a.y) (hb : bounds.Has b.x b.y)
    (h : distanceToSegment math point a b ≤ distance) : Near bounds point distance := by
  obtain ⟨t, ht, ht', heq⟩ := exists_foot math point a b
  have habs := abs_le_hypot math (point.x - (along a b t).x) (point.y - (along a b t).y)
  rw [← heq] at habs
  exact ⟨along a b t, has_along ha hb ht ht', habs.1.trans h, habs.2.trans h⟩

omit [FloorRing K] in
theorem near_of_distanceToPreparedEdge {edge : PreparedNetGraphEdge K}
    {source target : PreparedNetGraphNode K} (hcovers : Covers edge source target)
    {point : Point K} {distance : K}
    (h : distanceToPreparedEdge math point source target edge ≤ distance) :
    Near (edgeBounds edge) point distance := by
  -- the last point stays within the bounds, and what was near was near to a piece
  have hrun : ∀ (steps : List ℕ) (state : WithTop K × Point K),
      (edgeBounds edge).Has state.2.x state.2.y →
      (state.1 ≤ distance → Near (edgeBounds edge) point distance) →
      (steps.foldl (measurePiece math point source target edge) state).1 ≤ distance →
      Near (edgeBounds edge) point distance := by
    intro steps
    induction steps with
    | nil => exact fun _ _ hbest => hbest
    | cons step rest ih =>
      intro state hlast hbest
      have hcurrent := has_pointOnPreparedEdge hcovers (step / 10 : K)
      refine ih _ hcurrent ?_
      intro hmin
      rcases min_le_iff.mp hmin with hold | hnew
      · exact hbest hold
      · exact near_of_distanceToSegment math hlast hcurrent (WithTop.coe_le_coe.mp hnew)
  refine hrun _ _ (has_pointOnPreparedEdge hcovers 0) ?_ h
  intro htop
  exact absurd (top_le_iff.mp htop) WithTop.coe_ne_top

/-! ## No candidate is missed -/

theorem cell_size_pos : (0 : K) < SPATIAL_CELL_SIZE := by
  unfold SPATIAL_CELL_SIZE
  norm_num

omit [Field K] [IsStrictOrderedRing K] [FloorRing K] in
/-- Two intervals that are not one beyond the other have a number in common. -/
theorem exists_common {lo hi lo' hi' : K} (h : lo ≤ hi) (h' : lo' ≤ hi') (hlo : lo ≤ hi')
    (hlo' : lo' ≤ hi) : ∃ v, (lo ≤ v ∧ v ≤ hi) ∧ lo' ≤ v ∧ v ≤ hi' :=
  ⟨max lo lo', ⟨le_max_left _ _, max_le h hlo'⟩, le_max_right _ _, max_le hlo h'⟩

theorem mem_nodeCandidates {graph : PreparedNetGraph K} (h : Indexed graph) {point : Point K}
    {scale : K} {index : ℕ} {node : PreparedNetGraphNode K}
    (hnode : graph.nodes[index]? = some node)
    (hwithin : distanceToNode math point node ≤
      (node.radius.value + nodeAllowance scale : K)) :
    index ∈ nodeCandidates graph point scale := by
  have hdistance := WithTop.coe_le_coe.mp hwithin
  have habs := abs_le_hypot math (point.x - node.x) (point.y - node.y)
  have hx := abs_le.mp (habs.1.trans hdistance)
  have hy := abs_le.mp (habs.2.trans hdistance)
  have hradius := node.radius.least
  have hallowance : (0 : K) ≤ nodeAllowance scale := by
    unfold nodeAllowance
    positivity
  obtain ⟨x, hx1, hx2⟩ := exists_common
    (show node.x - node.radius.value ≤ node.x + node.radius.value by linarith)
    (show point.x - nodeAllowance scale - 18 ≤ point.x + nodeAllowance scale + 18 by linarith)
    (by linarith) (by linarith)
  obtain ⟨y, hy1, hy2⟩ := exists_common
    (show node.y - node.radius.value ≤ node.y + node.radius.value by linarith)
    (show point.y - nodeAllowance scale - 18 ≤ point.y + nodeAllowance scale + 18 by linarith)
    (by linarith) (by linarith)
  unfold nodeCandidates querySpatialIndex
  rw [h.nodes_filed]
  exact mem_query cell_size_pos hnode ⟨hx2, hy2⟩ ⟨hx1, hy1⟩

theorem mem_edgeCandidates {graph : PreparedNetGraph K} (h : Indexed graph) {point : Point K}
    {scale : K} {index : ℕ} {edge : PreparedNetGraphEdge K}
    (hedge : graph.edges[index]? = some edge)
    (hwithin : distanceToGraphEdge math graph point edge ≤ (edgeThreshold scale : K)) :
    index ∈ edgeCandidates graph point scale := by
  unfold distanceToGraphEdge at hwithin
  split at hwithin
  · next source target hsource htarget =>
    have hcovers := h.covered edge (List.mem_of_getElem? hedge) source target hsource htarget
    obtain ⟨q, hq, hx, hy⟩ := near_of_distanceToPreparedEdge math hcovers hwithin
    have hx' := abs_le.mp hx
    have hy' := abs_le.mp hy
    unfold edgeCandidates querySpatialIndex
    rw [h.edges_filed]
    refine mem_query cell_size_pos hedge ⟨⟨?_, ?_⟩, ?_, ?_⟩ hq
    all_goals dsimp only; linarith
  · exact absurd (top_le_iff.mp hwithin) WithTop.coe_ne_top

theorem scanned_node {graph : PreparedNetGraph K} (h : Indexed graph) (point : Point K)
    (scale : K) :
    Scanned graph.nodes (distanceToNode math point)
      (fun node => node.radius.value + nodeAllowance scale) (nodeCandidates graph point scale)
      (preparedHitNode math (some graph) point scale).item :=
  scanned_nearest fun _ _ hnode hwithin => mem_nodeCandidates math h hnode hwithin

theorem scanned_edge {graph : PreparedNetGraph K} (h : Indexed graph) (point : Point K)
    (scale : K) :
    Scanned graph.edges (distanceToGraphEdge math graph point) (fun _ => edgeThreshold scale)
      (edgeCandidates graph point scale) (preparedHitEdge math (some graph) point scale).item :=
  scanned_nearest fun _ _ hedge hwithin => mem_edgeCandidates math h hedge hwithin

/-! ## The hit tests -/

theorem hits_agree_with_scan {graph : PreparedNetGraph K} (h : Built math graph)
    (point : Point K) (scale : K) :
    Scanned graph.nodes (distanceToNode math point)
      (fun node => node.radius.value + nodeAllowance scale) (nodeCandidates graph point scale)
      (preparedHitNode math (some graph) point scale).item ∧
    Scanned graph.edges (distanceToGraphEdge math graph point) (fun _ => edgeThreshold scale)
      (edgeCandidates graph point scale) (preparedHitEdge math (some graph) point scale).item ∧
    ∀ edge, (preparedHitEdge math (some graph) point scale).item = some edge →
      ∀ other ∈ graph.edges,
        distanceToGraphEdge math graph point edge ≤ distanceToGraphEdge math graph point other := by
  have hnode := scanned_node math h.indexed point scale
  have hedge := scanned_edge math h.indexed point scale
  refine ⟨hnode, hedge, ?_⟩
  intro edge hfound other hother
  by_cases hwithin : distanceToGraphEdge math graph point other ≤ (edgeThreshold scale : K)
  · exact hedge.least edge hfound other hother hwithin
  · exact (hedge.within edge hfound).2.trans (le_of_lt (not_le.mp hwithin))

/-- The functions of `Math` on real numbers. -/
noncomputable def realMath : MathFunctions ℝ where
  hypot x y := √(x * x + y * y)
  sqrt := Real.sqrt
  log1p x := Real.log (1 + x)
  hypot_nonneg _ _ := Real.sqrt_nonneg _
  hypot_mul_self x y := Real.mul_self_sqrt (add_nonneg (mul_self_nonneg x) (mul_self_nonneg y))

theorem smallRadius_least : (9 / 2 : ℝ) ≤ (67 : ℕ) / (10 : ℕ) := by norm_num

theorem smallRadius_most : ((67 : ℕ) / (10 : ℕ) : ℝ) ≤ 16 := by norm_num

/-- A node with one route, a little beyond its tolerance. -/
noncomputable def smallNode : PreparedNetGraphNode ℝ where
  id := "small"
  x := 15
  y := 0
  radius := { value := (67 : ℕ) / (10 : ℕ), least := smallRadius_least, most := smallRadius_most }

theorem largeRadius_least : (9 / 2 : ℝ) ≤ (16 : ℕ) := by norm_num

theorem largeRadius_most : ((16 : ℕ) : ℝ) ≤ 16 := by norm_num

/-- A node of the greatest radius, further away. -/
noncomputable def largeNode : PreparedNetGraphNode ℝ where
  id := "large"
  x := -20
  y := 0
  radius := { value := (16 : ℕ), least := largeRadius_least, most := largeRadius_most }

noncomputable def twoNodes : PreparedNetGraph ℝ :=
  refreshPreparedEdgeGeometry realMath
    { nodes := [smallNode, largeNode]
      edges := []
      nodeIndexByID := fun _ => none
      edgeIndexByID := fun _ => none
      nodeSpatialIndex := createNodeSpatialIndex []
      edgeSpatialIndex := createEdgeSpatialIndex [] }

theorem distance_smallNode : distanceToNode realMath ⟨0, 0⟩ smallNode = (15 : ℝ) := by
  have hsq : (0 - smallNode.x) * (0 - smallNode.x) + (0 - smallNode.y) * (0 - smallNode.y) =
      15 ^ 2 := by
    norm_num [smallNode]
  simp only [distanceToNode, realMath]
  rw [hsq, Real.sqrt_sq (by norm_num)]

theorem distance_largeNode : distanceToNode realMath ⟨0, 0⟩ largeNode = (20 : ℝ) := by
  have hsq : (0 - largeNode.x) * (0 - largeNode.x) + (0 - largeNode.y) * (0 - largeNode.y) =
      20 ^ 2 := by
    norm_num [largeNode]
  simp only [distanceToNode, realMath]
  rw [hsq, Real.sqrt_sq (by norm_num)]

theorem largeNode_within : distanceToNode realMath ⟨0, 0⟩ largeNode ≤
    (largeNode.radius.value + nodeAllowance 1 : ℝ) := by
  rw [distance_largeNode, WithTop.coe_le_coe]
  norm_num [largeNode, nodeAllowance]

theorem smallNode_beyond : ¬ distanceToNode realMath ⟨0, 0⟩ smallNode ≤
    (smallNode.radius.value + nodeAllowance 1 : ℝ) := by
  rw [distance_smallNode, WithTop.coe_le_coe]
  norm_num [smallNode, nodeAllowance]

theorem hits_agree_with_scan_twoNodes :
    ∃ node, (preparedHitNode realMath (some twoNodes) ⟨0, 0⟩ 1).item = some node :=
  (hits_agree_with_scan realMath (Or.inr ⟨_, rfl⟩ : Built realMath twoNodes) ⟨0, 0⟩ 1).1.found_iff.mpr
    ⟨largeNode, List.mem_cons_of_mem _ List.mem_cons_self, largeNode_within⟩

theorem hit_node_not_nearest :
    ¬ ∀ (math : MathFunctions ℝ) (graph : PreparedNetGraph ℝ), Built math graph →
      ∀ (point : Point ℝ) (scale : ℝ), 0 < scale →
      ∀ node, (preparedHitNode math (some graph) point scale).item = some node →
        ∀ other ∈ graph.nodes,
          distanceToNode math point node ≤ distanceToNode math point other := by
  intro h
  have hbuilt : Built realMath twoNodes := Or.inr ⟨_, rfl⟩
  have hscan := scanned_node realMath hbuilt.indexed ⟨0, 0⟩ 1
  obtain ⟨node, hnode⟩ := hscan.found_iff.mpr
    ⟨largeNode, List.mem_cons_of_mem _ List.mem_cons_self, largeNode_within⟩
  have hle := h realMath twoNodes hbuilt ⟨0, 0⟩ 1 one_pos node hnode smallNode List.mem_cons_self
  -- only the large node is within its tolerance
  obtain ⟨hmem, hwithin⟩ := hscan.within node hnode
  have hcases : node = smallNode ∨ node = largeNode := by
    rcases List.mem_cons.mp hmem with rfl | hrest
    · exact Or.inl rfl
    · exact Or.inr (List.mem_singleton.mp hrest)
  rcases hcases with rfl | rfl
  · exact smallNode_beyond hwithin
  · rw [distance_largeNode, distance_smallNode, WithTop.coe_le_coe] at hle
    norm_num at hle

end CartoLive.Theorems.HitTesting
