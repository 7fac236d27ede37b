import CartoLive.Lib.CellIndex
import CartoLive.Lib.Segments
import CartoLive.Web.AppState

/-!
# The prepared network graph

Positions, indexes and hit tests of `netgraphPrepared.ts`, and the graph that the worker of
`netgraphTransforms.ts` makes of a settled layout. Numbers are those of any ordered field with
floors; `Math.hypot`, `Math.sqrt` and `Math.log1p` are given. The layout itself is not part of
this: the settled nodes may be anywhere.
-/

namespace CartoLive.Web.NetGraph

open CartoLive.Lib
open CartoLive.Lib.Segments (Point along)

universe u

section

variable (K : Type u) [Field K] [LinearOrder K]

/-- The functions of `Math`. What the code relies on is that `hypot` is the length. -/
structure MathFunctions where
  hypot : K → K → K
  sqrt : K → K
  log1p : K → K
  hypot_nonneg : ∀ x y, 0 ≤ hypot x y
  hypot_mul_self : ∀ x y, hypot x y * hypot x y = x * x + y * y

structure NetGraphNode where
  id : String
  isObserver : Bool
  activityCount : K
  degree : K

structure NetGraphEdge where
  id : String
  sourceID : String
  targetID : String
  packetCount : K

/-- What `nodeRadius` keeps a radius to. -/
structure NodeRadius where
  value : K
  least : 9 / 2 ≤ value
  most : value ≤ 16

structure SimNode where
  id : String
  x : Option K
  y : Option K
  seedX : K
  seedY : K
  radius : NodeRadius K

structure SimLink extends NetGraphEdge K where
  laneCount : K
  laneOffset : K

structure PreparedNetGraphNode where
  id : String
  x : K
  y : K
  radius : NodeRadius K

structure PreparedNetGraphEdge extends NetGraphEdge K where
  sourceIndex : ℕ
  targetIndex : ℕ
  laneOffset : K
  laneCount : K
  controlX : K
  controlY : K
  minX : K
  minY : K
  maxX : K
  maxY : K
  width : K

structure NetGraphSpatialIndex where
  cellSize : K
  buckets : String → List ℕ

structure PreparedNetGraph where
  nodes : List (PreparedNetGraphNode K)
  edges : List (PreparedNetGraphEdge K)
  nodeIndexByID : String → Option ℕ
  edgeIndexByID : String → Option ℕ
  nodeSpatialIndex : NetGraphSpatialIndex K
  edgeSpatialIndex : NetGraphSpatialIndex K

end

structure NetGraphHitResult (α : Type u) where
  item : Option α
  candidates : ℕ

variable {K : Type u} [Field K] [LinearOrder K] [IsStrictOrderedRing K] [FloorRing K]

/-! ## Indexes -/

def SPATIAL_CELL_SIZE : K := 128

def cellKey (cell : ℤ × ℤ) : String := s!"{cell.1}:{cell.2}"

def nodeBounds (node : PreparedNetGraphNode K) : Bounds K where
  minX := node.x - node.radius.value
  minY := node.y - node.radius.value
  maxX := node.x + node.radius.value
  maxY := node.y + node.radius.value

def edgeBounds (edge : PreparedNetGraphEdge K) : Bounds K where
  minX := edge.minX
  minY := edge.minY
  maxX := edge.maxX
  maxY := edge.maxY

def createNodeSpatialIndex (nodes : List (PreparedNetGraphNode K)) : NetGraphSpatialIndex K where
  cellSize := SPATIAL_CELL_SIZE
  buckets := fileByCells cellKey SPATIAL_CELL_SIZE nodeBounds nodes

def createEdgeSpatialIndex (edges : List (PreparedNetGraphEdge K)) : NetGraphSpatialIndex K where
  cellSize := SPATIAL_CELL_SIZE
  buckets := fileByCells cellKey SPATIAL_CELL_SIZE edgeBounds edges

def querySpatialIndex (index : NetGraphSpatialIndex K) (bounds : Bounds K) : List ℕ :=
  queryCells cellKey index.cellSize index.buckets bounds

/-- The position of each name, the last one where a name is repeated. -/
def indexByID (ids : List String) : String → Option ℕ :=
  ids.zipIdx.foldl (fun indexes entry => Function.update indexes entry.1 (some entry.2))
    fun _ => none

def rebuildPreparedNetGraphIndexes (graph : PreparedNetGraph K) : PreparedNetGraph K :=
  { graph with
    nodeIndexByID := indexByID (graph.nodes.map (·.id))
    edgeIndexByID := indexByID (graph.edges.map (·.id))
    nodeSpatialIndex := createNodeSpatialIndex graph.nodes
    edgeSpatialIndex := createEdgeSpatialIndex graph.edges }

/-! ## The curve of an edge -/

/-- The values of `charCodeAt`. -/
def charCodes (text : String) : List (BitVec 32) :=
  text.toList.flatMap fun c =>
    let code := c.toNat
    if code < 0x10000 then [BitVec.ofNat 32 code]
    else [BitVec.ofNat 32 (0xD800 + (code - 0x10000) / 0x400),
      BitVec.ofNat 32 (0xDC00 + (code - 0x10000) % 0x400)]

def stableHash (value : String) : BitVec 32 :=
  (charCodes value).foldl (fun hash code => (hash ^^^ code) * 16777619) 2166136261

def edgeDirectionSign (sourceID targetID : String) : K :=
  if utf16Key sourceID ≤ utf16Key targetID then 1 else -1

def fallbackEdgeBend (edgeID : String) (baseBend : K) : K :=
  let bendSeed : K := ((stableHash edgeID).toNat % 1000 : ℕ) / 999 - 1 / 2
  let signed : K := if bendSeed = 0 then 1 else bendSeed
  (if 0 < signed then 1 else if signed < 0 then -1 else 0) * baseBend * (45 / 100 + |bendSeed|)

def preparedEdgeControlPoint (math : MathFunctions K) (source target : PreparedNetGraphNode K)
    (edge : NetGraphEdge K) (laneCount laneOffset : K) : Point K :=
  let dx := target.x - source.x
  let dy := target.y - source.y
  let length := max 1 (math.hypot dx dy)
  let baseBend := min 58 (max 10 (length * (75 / 1000)))
  let bend :=
    if laneCount > 1 then
      laneOffset * baseBend * (9 / 10) * edgeDirectionSign edge.sourceID edge.targetID
    else fallbackEdgeBend edge.id baseBend
  { x := (source.x + target.x) / 2 + (-dy / length) * bend
    y := (source.y + target.y) / 2 + (dx / length) * bend }

/-- An edge with its control point and its bounds, which both builders set. -/
def withGeometry (edge : PreparedNetGraphEdge K) (source target : PreparedNetGraphNode K)
    (control : Point K) : PreparedNetGraphEdge K :=
  let padding := max 16 (edge.width + 10)
  { edge with
    controlX := control.x
    controlY := control.y
    minX := min (min source.x target.x) control.x - padding
    minY := min (min source.y target.y) control.y - padding
    maxX := max (max source.x target.x) control.x + padding
    maxY := max (max source.y target.y) control.y + padding }

def refreshEdge (math : MathFunctions K) (nodes : List (PreparedNetGraphNode K))
    (edge : PreparedNetGraphEdge K) : PreparedNetGraphEdge K :=
  match nodes[edge.sourceIndex]?, nodes[edge.targetIndex]? with
  | some source, some target =>
    withGeometry edge source target
      (preparedEdgeControlPoint math source target edge.toNetGraphEdge edge.laneCount
        edge.laneOffset)
  | _, _ => edge

def refreshPreparedEdgeGeometry (math : MathFunctions K) (graph : PreparedNetGraph K) :
    PreparedNetGraph K :=
  rebuildPreparedNetGraphIndexes
    { graph with edges := graph.edges.map (refreshEdge math graph.nodes) }

/-! ## The worker's graph -/

def nodeRadius (math : MathFunctions K) (node : NetGraphNode K) : NodeRadius K where
  value := max (9 / 2) (min 16 (9 / 2 + math.sqrt node.degree * (22 / 10) +
    math.log1p node.activityCount * (55 / 100) + if node.isObserver then 3 / 2 else 0))
  least := le_max_left _ _
  most := max_le (by norm_num) (min_le_left _ _)

def edgeWidth (math : MathFunctions K) (edge : NetGraphEdge K) : K :=
  max (55 / 100) (min (18 / 10) (math.log1p edge.packetCount * (24 / 100)))

/-- A node before the layout, at its seed. -/
def simNodeFromGraphNode (math : MathFunctions K) (node : NetGraphNode K) (seed : Point K) :
    SimNode K where
  id := node.id
  x := some seed.x
  y := some seed.y
  seedX := seed.x
  seedY := seed.y
  radius := nodeRadius math node

def preparedNode (node : SimNode K) : PreparedNetGraphNode K where
  id := node.id
  x := node.x.getD node.seedX
  y := node.y.getD node.seedY
  radius := node.radius

def preparedEdge (math : MathFunctions K) (nodes : List (PreparedNetGraphNode K))
    (nodeIndexByID : String → Option ℕ) (edge : SimLink K) : Option (PreparedNetGraphEdge K) :=
  match nodeIndexByID edge.sourceID, nodeIndexByID edge.targetID with
  | some sourceIndex, some targetIndex =>
    match nodes[sourceIndex]?, nodes[targetIndex]? with
    | some source, some target =>
      some (withGeometry
        { edge.toNetGraphEdge with
          sourceIndex
          targetIndex
          laneOffset := edge.laneOffset
          laneCount := edge.laneCount
          controlX := 0
          controlY := 0
          minX := 0
          minY := 0
          maxX := 0
          maxY := 0
          width := edgeWidth math edge.toNetGraphEdge }
        source target
        (preparedEdgeControlPoint math source target edge.toNetGraphEdge edge.laneCount
          edge.laneOffset))
    | _, _ => none
  | _, _ => none

def preparedGraphFromSettledGraph (math : MathFunctions K) (simNodes : List (SimNode K))
    (simLinks : List (SimLink K)) : PreparedNetGraph K :=
  let nodes := simNodes.map preparedNode
  let nodeIndexByID := indexByID (nodes.map (·.id))
  let edges := simLinks.filterMap (preparedEdge math nodes nodeIndexByID)
  { nodes
    edges
    nodeIndexByID
    edgeIndexByID := indexByID (edges.map (·.id))
    nodeSpatialIndex := createNodeSpatialIndex nodes
    edgeSpatialIndex := createEdgeSpatialIndex edges }

/-! ## Distances -/

def pointOnPreparedEdge (source target : PreparedNetGraphNode K) (edge : PreparedNetGraphEdge K)
    (progress : K) : Point K :=
  let t := max 0 (min 1 progress)
  let oneMinus := 1 - t
  { x := oneMinus * oneMinus * source.x + 2 * oneMinus * t * edge.controlX + t * t * target.x
    y := oneMinus * oneMinus * source.y + 2 * oneMinus * t * edge.controlY + t * t * target.y }

def distanceToSegment (math : MathFunctions K) (point source target : Point K) : K :=
  let dx := target.x - source.x
  let dy := target.y - source.y
  let length := dx * dx + dy * dy
  if length = 0 then math.hypot (point.x - source.x) (point.y - source.y)
  else
    let t := max 0 (min 1 (((point.x - source.x) * dx + (point.y - source.y) * dy) / length))
    math.hypot (point.x - (source.x + t * dx)) (point.y - (source.y + t * dy))

/-- The best distance so far and the end of the last piece. -/
def measurePiece (math : MathFunctions K) (point : Point K)
    (source target : PreparedNetGraphNode K) (edge : PreparedNetGraphEdge K)
    (state : WithTop K × Point K) (step : ℕ) : WithTop K × Point K :=
  let current := pointOnPreparedEdge source target edge (step / 10)
  (min state.1 ↑(distanceToSegment math point state.2 current), current)

def distanceToPreparedEdge (math : MathFunctions K) (point : Point K)
    (source target : PreparedNetGraphNode K) (edge : PreparedNetGraphEdge K) : WithTop K :=
  ((List.range' 1 10).foldl (measurePiece math point source target edge)
    (⊤, pointOnPreparedEdge source target edge 0)).1

def distanceToNode (math : MathFunctions K) (point : Point K) (node : PreparedNetGraphNode K) :
    WithTop K :=
  (math.hypot (point.x - node.x) (point.y - node.y) : K)

/-- The distance to an edge of a graph. The loop passes over an edge without its ends, as over
one that is infinitely far. -/
def distanceToGraphEdge (math : MathFunctions K) (graph : PreparedNetGraph K) (point : Point K)
    (edge : PreparedNetGraphEdge K) : WithTop K :=
  match graph.nodes[edge.sourceIndex]?, graph.nodes[edge.targetIndex]? with
  | some source, some target => distanceToPreparedEdge math point source target edge
  | _, _ => ⊤

/-! ## Hit tests -/

def nodeAllowance (scale : K) : K := 8 / max (1 / 1000) scale

def edgeThreshold (scale : K) : K := 14 / max (1 / 1000) scale

def nodeCandidates (graph : PreparedNetGraph K) (point : Point K) (scale : K) : List ℕ :=
  let allowance := nodeAllowance scale
  querySpatialIndex graph.nodeSpatialIndex
    { minX := point.x - allowance - 18
      minY := point.y - allowance - 18
      maxX := point.x + allowance + 18
      maxY := point.y + allowance + 18 }

def edgeCandidates (graph : PreparedNetGraph K) (point : Point K) (scale : K) : List ℕ :=
  let threshold := edgeThreshold scale
  querySpatialIndex graph.edgeSpatialIndex
    { minX := point.x - threshold
      minY := point.y - threshold
      maxX := point.x + threshold
      maxY := point.y + threshold }

def preparedHitNode (math : MathFunctions K) (graph : Option (PreparedNetGraph K))
    (point : Point K) (scale : K) : NetGraphHitResult (PreparedNetGraphNode K) :=
  match graph with
  | none => { item := none, candidates := 0 }
  | some graph =>
    let candidates := nodeCandidates graph point scale
    { item := (nearest graph.nodes (distanceToNode math point)
        (fun node => node.radius.value + nodeAllowance scale) candidates).1
      candidates := candidates.length }

def preparedHitEdge (math : MathFunctions K) (graph : Option (PreparedNetGraph K))
    (point : Point K) (scale : K) : NetGraphHitResult (PreparedNetGraphEdge K) :=
  match graph with
  | none => { item := none, candidates := 0 }
  | some graph =>
    let candidates := edgeCandidates graph point scale
    { item := (nearest graph.edges (distanceToGraphEdge math graph point)
        (fun _ => edgeThreshold scale) candidates).1
      candidates := candidates.length }

end CartoLive.Web.NetGraph
