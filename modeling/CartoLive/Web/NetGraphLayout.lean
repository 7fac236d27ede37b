import CartoLive.Web.NetGraph
import Mathlib.Algebra.BigOperators.Group.List.Basic
import Mathlib.Data.Rat.Floor
import Mathlib.Tactic.NormNum
import Mathlib.Tactic.Ring

/-!
# The visible graph

`stableVisibleGraph`, `graphTopologySignature` and `buildEdgeRenderPlans` of `netgraphLayout.ts`.
A limit is any number, as `slice` takes it. Lanes are as far apart as one: those of a corridor are
numbered from zero on, and their offsets lie around zero.
-/

namespace CartoLive.Web.Graph

open CartoLive.Go CartoLive.Lib

structure VisibleGraphLimits where
  maxNodes : F64
  maxEdges : F64

structure NetGraphEdgeRenderPlan where
  edgeID : String
  corridorKey : String
  laneIndex : Nat
  laneCount : Nat
  laneOffset : ℚ
  deriving DecidableEq

/-- `slice(0, end)`: a number is truncated, and counts from the end where it is negative. -/
def sliceTo {α : Type} (items : List α) : F64 → List α
  | .nan => []
  | .inf negative => if negative then [] else items
  | .fin last =>
    if last ≤ -1 then items.take (items.length - ⌊-last⌋.toNat) else items.take ⌊last⌋.toNat

/-- `sort()` of texts. -/
def sortedTexts (texts : List String) : List String :=
  texts.insertionSort fun a b => utf16Key a ≤ utf16Key b

def edgeCorridorKey (edge : NetGraphEdge) : String :=
  if utf16Key edge.sourceID ≤ utf16Key edge.targetID then edge.sourceID ++ "|" ++ edge.targetID
  else edge.targetID ++ "|" ++ edge.sourceID

variable (platform : Platform)

def compareNodesForStableLayout (a b : NetGraphNode) : Ordering :=
  (compare b.degree a.degree).then
    ((platform.localeCompare a.label b.label).then (platform.localeCompare a.id b.id))

def compareEdgesForStableLayout (a b : NetGraphEdge) : Ordering :=
  (platform.localeCompare (edgeCorridorKey a) (edgeCorridorKey b)).then
    (platform.localeCompare a.id b.id)

/-- `stableVisibleGraph`. -/
def stableVisibleGraph (graph : NetGraphData) (limits : VisibleGraphLimits) : NetGraphData :=
  let visibleNodes := sliceTo
    (graph.nodes.insertionSort fun a b => (compareNodesForStableLayout platform a b).isLE)
    limits.maxNodes
  let visibleNodeIDs := visibleNodes.map NetGraphNode.id
  let visibleEdges := sliceTo
    ((graph.edges.filter fun edge =>
        edge.sourceID ∈ visibleNodeIDs ∧ edge.targetID ∈ visibleNodeIDs).insertionSort
      fun a b => (compareEdgesForStableLayout platform a b).isLE)
    limits.maxEdges
  { nodes := visibleNodes
    edges := visibleEdges
    nodeByID := byID NetGraphNode.id visibleNodes
    edgeByID := byID NetGraphEdge.id visibleEdges }

/-- `graphTopologySignature`. -/
def graphTopologySignature (graph : NetGraphData) : String :=
  let nodes := "|".intercalate (sortedTexts (graph.nodes.map NetGraphNode.id))
  let edges := "|".intercalate (sortedTexts (graph.edges.map fun edge =>
    edge.id ++ ":" ++ edge.sourceID ++ ">" ++ edge.targetID))
  nodes ++ "::" ++ edges

/-- The groups of `buildEdgeRenderPlans`. -/
def corridorGroups (edges : List NetGraphEdge) : List (String × List NetGraphEdge) :=
  edges.foldl (fun groups edge =>
    let key := edgeCorridorKey edge
    let group := ((Keyed.get Prod.fst key groups).map Prod.snd).getD []
    Keyed.setEntry groups key (group ++ [edge])) []

/-- The plans that are set for a group. -/
def lanesOf (corridorKey : String) (group : List NetGraphEdge) : List NetGraphEdgeRenderPlan :=
  let ordered := group.insertionSort fun a b => (compareEdgesForStableLayout platform a b).isLE
  let laneCount := ordered.length
  ordered.mapIdx fun index edge =>
    { edgeID := edge.id
      corridorKey
      laneIndex := index
      laneCount
      laneOffset := if laneCount = 1 then 0 else index - ((laneCount : ℚ) - 1) / 2 }

/-- `buildEdgeRenderPlans`. -/
def buildEdgeRenderPlans (edges : List NetGraphEdge) : String → Option NetGraphEdgeRenderPlan :=
  byID NetGraphEdgeRenderPlan.edgeID
    (((corridorGroups edges).insertionSort fun a b =>
      (platform.localeCompare a.1 b.1).isLE).flatMap fun entry => lanesOf platform entry.1 entry.2)

theorem sliceTo_sublist {α : Type} (items : List α) (limit : F64) :
    (sliceTo items limit).Sublist items := by
  unfold sliceTo
  cases limit with
  | nan => exact List.nil_sublist _
  | inf negative =>
    dsimp only
    split
    · exact List.nil_sublist _
    · exact List.Sublist.refl _
  | fin last =>
    dsimp only
    split <;> exact List.take_sublist _ _

/-! ## Corridors -/

/-- What the layout looks at of an edge. -/
structure EdgeShape where
  id : String
  sourceID : String
  targetID : String

def edgeShape (edge : NetGraphEdge) : EdgeShape where
  id := edge.id
  sourceID := edge.sourceID
  targetID := edge.targetID

/-- The corridor of what the layout looks at. -/
def corridorOf (shape : EdgeShape) : String :=
  if utf16Key shape.sourceID ≤ utf16Key shape.targetID then shape.sourceID ++ "|" ++ shape.targetID
  else shape.targetID ++ "|" ++ shape.sourceID

theorem edgeCorridorKey_eq (edge : NetGraphEdge) :
    edgeCorridorKey edge = corridorOf (edgeShape edge) := rfl

/-- The groups are the edges of each corridor. -/
theorem corridorGroups_spec (edges : List NetGraphEdge) :
    ((corridorGroups edges).map Prod.fst).Nodup ∧
      (∀ key, key ∈ (corridorGroups edges).map Prod.fst ↔ key ∈ edges.map edgeCorridorKey) ∧
      ∀ entry ∈ corridorGroups edges,
        entry.2 = edges.filter fun edge => edgeCorridorKey edge = entry.1 := by
  induction edges using List.reverseRecOn with
  | nil => exact ⟨List.nodup_nil, fun _ => Iff.rfl, fun entry hentry => by cases hentry⟩
  | append_singleton edges edge ih =>
    obtain ⟨hnodup, hkeys, hgroups⟩ := ih
    have hset : corridorGroups (edges ++ [edge]) =
        Keyed.setEntry (corridorGroups edges) (edgeCorridorKey edge)
          (((Keyed.get Prod.fst (edgeCorridorKey edge) (corridorGroups edges)).map
            Prod.snd).getD [] ++ [edge]) := by
      unfold corridorGroups
      rw [List.foldl_append, List.foldl_cons, List.foldl_nil]
    -- What is found under the corridor of the edge is the group so far.
    have hfound : ((Keyed.get Prod.fst (edgeCorridorKey edge) (corridorGroups edges)).map
        Prod.snd).getD [] =
          edges.filter fun other => edgeCorridorKey other = edgeCorridorKey edge := by
      cases hget : Keyed.get Prod.fst (edgeCorridorKey edge) (corridorGroups edges) with
      | none =>
        have hnot := Keyed.get_eq_none_iff.mp hget
        rw [hkeys] at hnot
        refine (List.filter_eq_nil_iff.mpr fun other hother hkey => hnot ?_).symm
        exact List.mem_map.mpr ⟨other, hother, of_decide_eq_true hkey⟩
      | some entry =>
        have hkey : entry.1 = edgeCorridorKey edge := Keyed.key_of_get hget
        have hgroup := hgroups entry (Keyed.mem_of_get hget)
        rw [hkey] at hgroup
        exact hgroup
    have hone : ∀ key, [edge].filter (fun other => decide (edgeCorridorKey other = key)) =
        if edgeCorridorKey edge = key then [edge] else [] := by
      intro key
      rw [List.filter_cons, List.filter_nil]
      by_cases hkey : edgeCorridorKey edge = key
      · rw [if_pos hkey, if_pos (decide_eq_true hkey)]
      · rw [if_neg hkey, if_neg fun h => hkey (of_decide_eq_true h)]
    rw [hset, hfound]
    refine ⟨Keyed.nodup_setEntry hnodup _ _, fun key => ?_, fun entry hentry => ?_⟩
    · rw [Keyed.mem_keys_setEntry, hkeys, List.map_append, List.mem_append, List.map_singleton,
        List.mem_singleton]
    · rw [List.filter_append, hone]
      rcases Keyed.mem_setEntry hentry with rfl | ⟨hentry, hne⟩
      · rw [if_pos rfl]
      · rw [if_neg (Ne.symm hne), List.append_nil, hgroups entry hentry]

section Lanes

theorem map_edgeID_lanesOf (key : String) (group : List NetGraphEdge) :
    (lanesOf platform key group).map NetGraphEdgeRenderPlan.edgeID =
      (group.insertionSort fun a b =>
        (compareEdgesForStableLayout platform a b).isLE).map NetGraphEdge.id := by
  unfold lanesOf
  refine List.ext_getElem (by simp) fun i hi _ => ?_
  simp

theorem map_laneIndex_lanesOf (key : String) (group : List NetGraphEdge) :
    (lanesOf platform key group).map NetGraphEdgeRenderPlan.laneIndex =
      List.range group.length := by
  unfold lanesOf
  refine List.ext_getElem (by simp) fun i hi _ => ?_
  simp

theorem mem_lanesOf {key : String} {group : List NetGraphEdge} {plan : NetGraphEdgeRenderPlan}
    (h : plan ∈ lanesOf platform key group) :
    plan.corridorKey = key ∧ plan.laneCount = group.length ∧
      plan.laneOffset = plan.laneIndex - ((group.length : ℚ) - 1) / 2 := by
  unfold lanesOf at h
  obtain ⟨i, hi, rfl⟩ := List.mem_mapIdx.mp h
  dsimp only
  rw [List.length_insertionSort]
  refine ⟨rfl, rfl, ?_⟩
  split
  · rename_i hone
    rw [List.length_insertionSort, hone] at hi
    have hzero : i = 0 := by omega
    rw [hzero, hone]
    norm_num
  · rfl

/-- The plans of a group are known from what the layout looks at. -/
theorem lanesOf_eq (key : String) {group group' : List NetGraphEdge}
    (h : (group.insertionSort fun a b =>
        (compareEdgesForStableLayout platform a b).isLE).map edgeShape =
      (group'.insertionSort fun a b =>
        (compareEdgesForStableLayout platform a b).isLE).map edgeShape) :
    lanesOf platform key group = lanesOf platform key group' := by
  have hids : ∀ ordered : List NetGraphEdge,
      (ordered.mapIdx fun index edge =>
        ({ edgeID := edge.id
           corridorKey := key
           laneIndex := index
           laneCount := ordered.length
           laneOffset :=
            if ordered.length = 1 then 0 else index - ((ordered.length : ℚ) - 1) / 2 } :
          NetGraphEdgeRenderPlan)) =
      (ordered.map edgeShape).mapIdx fun index shape =>
        { edgeID := shape.id
          corridorKey := key
          laneIndex := index
          laneCount := (ordered.map edgeShape).length
          laneOffset := if (ordered.map edgeShape).length = 1 then 0
            else index - (((ordered.map edgeShape).length : ℚ) - 1) / 2 } := by
    intro ordered
    rw [List.length_map]
    refine List.ext_getElem (by simp) fun i hi _ => ?_
    rw [List.getElem_mapIdx, List.getElem_mapIdx, List.getElem_map]
    rfl
  unfold lanesOf
  dsimp only
  rw [hids, hids, h]

variable {platform}

/-- What is found under an ID is the plan of the one edge that has it. -/
theorem buildEdgeRenderPlans_eq_some_iff {edges : List NetGraphEdge}
    (hnodup : (edges.map NetGraphEdge.id).Nodup) {id : String} {plan : NetGraphEdgeRenderPlan} :
    buildEdgeRenderPlans platform edges id = some plan ↔
      (∃ key, plan ∈ lanesOf platform key (edges.filter fun edge => edgeCorridorKey edge = key)) ∧
        plan.edgeID = id := by
  obtain ⟨hkeys, hmem, hgroups⟩ := corridorGroups_spec edges
  have hperm := List.perm_insertionSort
    (fun a b : String × List NetGraphEdge => (platform.localeCompare a.1 b.1).isLE = true)
    (corridorGroups edges)
  have hids : ((((corridorGroups edges).insertionSort fun a b =>
      (platform.localeCompare a.1 b.1).isLE).flatMap fun entry =>
        lanesOf platform entry.1 entry.2).map NetGraphEdgeRenderPlan.edgeID).Nodup := by
    refine ((hperm.flatMap_right _).map _).nodup_iff.mpr ?_
    rw [List.map_flatMap, List.nodup_flatMap]
    constructor
    · intro entry hentry
      rw [map_edgeID_lanesOf, hgroups entry hentry]
      refine ((List.perm_insertionSort _ _).map _).nodup_iff.mpr ?_
      exact hnodup.sublist (List.filter_sublist.map _)
    · refine (List.pairwise_map.mp hkeys).imp_of_mem ?_
      intro entry other hentry hother hne id hid hid'
      have hedge : ∀ entry ∈ corridorGroups edges, id ∈ (lanesOf platform entry.1 entry.2).map
          NetGraphEdgeRenderPlan.edgeID →
            ∃ edge ∈ edges, edgeCorridorKey edge = entry.1 ∧ edge.id = id := by
        intro entry hentry hid
        rw [map_edgeID_lanesOf, hgroups entry hentry] at hid
        obtain ⟨edge, hedge, rfl⟩ := List.mem_map.mp hid
        obtain ⟨hedge, hkey⟩ := List.mem_filter.mp ((List.mem_insertionSort _).mp hedge)
        exact ⟨edge, hedge, of_decide_eq_true hkey, rfl⟩
      obtain ⟨edge, hmemEdge, hkey, hedgeID⟩ := hedge entry hentry hid
      obtain ⟨edge', hmemEdge', hkey', hedgeID'⟩ := hedge other hother hid'
      have hsame := List.inj_on_of_nodup_map hnodup hmemEdge hmemEdge' (hedgeID.trans hedgeID'.symm)
      exact hne (hkey.symm.trans ((congrArg edgeCorridorKey hsame).trans hkey'))
  unfold buildEdgeRenderPlans
  rw [byID_eq_some_iff hids, List.mem_flatMap]
  refine and_congr_left fun _ => ?_
  constructor
  · rintro ⟨entry, hentry, hplan⟩
    rw [hgroups entry (hperm.mem_iff.mp hentry)] at hplan
    exact ⟨entry.1, hplan⟩
  · rintro ⟨key, hplan⟩
    have hkey : key ∈ (corridorGroups edges).map Prod.fst := by
      rw [hmem]
      have hid := List.mem_map_of_mem (f := NetGraphEdgeRenderPlan.edgeID) hplan
      rw [map_edgeID_lanesOf] at hid
      obtain ⟨edge, hedge, -⟩ := List.mem_map.mp hid
      obtain ⟨hedge, hkey⟩ := List.mem_filter.mp ((List.mem_insertionSort _).mp hedge)
      exact List.mem_map.mpr ⟨edge, hedge, of_decide_eq_true hkey⟩
    obtain ⟨entry, hentry, rfl⟩ := List.mem_map.mp hkey
    refine ⟨entry, hperm.mem_iff.mpr hentry, ?_⟩
    rwa [hgroups entry hentry]

end Lanes

/-- The lanes of each corridor are those from zero on, each once, and lie around zero. -/
structure EvenLanes (edges : List NetGraphEdge) (plans : String → Option NetGraphEdgeRenderPlan) :
    Prop where
  planned : ∀ edge ∈ edges, ∃ plan, plans edge.id = some plan ∧ plan.edgeID = edge.id ∧
    plan.corridorKey = edgeCorridorKey edge ∧
    plan.laneCount =
      (edges.filter fun other => edgeCorridorKey other = edgeCorridorKey edge).length
  lanes : ∀ key, ((edges.filter fun edge => edgeCorridorKey edge = key).filterMap fun edge =>
      (plans edge.id).map NetGraphEdgeRenderPlan.laneIndex).Perm
    (List.range (edges.filter fun edge => edgeCorridorKey edge = key).length)
  offsets : ∀ key, ((edges.filter fun edge => edgeCorridorKey edge = key).filterMap fun edge =>
      (plans edge.id).map NetGraphEdgeRenderPlan.laneOffset).sum = 0

theorem sum_offsets (n : Nat) :
    ((List.range n).map fun index : Nat => (index : ℚ) - ((n : ℚ) - 1) / 2).sum = 0 := by
  have hsum : ∀ m : Nat,
      ((List.range m).map fun index : Nat => (index : ℚ) - ((n : ℚ) - 1) / 2).sum =
        m * (m - n) / 2 := by
    intro m
    induction m with
    | zero => simp
    | succ m ih =>
      rw [List.range_succ, List.map_append, List.sum_append, ih, List.map_singleton,
        List.sum_singleton]
      push_cast
      ring
  rw [hsum]
  ring

section Lanes

variable {platform} {edges : List NetGraphEdge}

/-- The plans that are found for the edges of a corridor are those of its group. -/
theorem perm_plans (platform : Platform) (hnodup : (edges.map NetGraphEdge.id).Nodup) (key : String) :
    ((edges.filter fun edge => edgeCorridorKey edge = key).map fun edge =>
      buildEdgeRenderPlans platform edges edge.id).Perm
      ((lanesOf platform key (edges.filter fun edge => edgeCorridorKey edge = key)).map some) := by
  let group := edges.filter fun edge => edgeCorridorKey edge = key
  have hfound : ((lanesOf platform key group).map NetGraphEdgeRenderPlan.edgeID).map
      (buildEdgeRenderPlans platform edges) = (lanesOf platform key group).map some := by
    rw [List.map_map]
    refine List.map_congr_left fun plan hplan => ?_
    exact (buildEdgeRenderPlans_eq_some_iff hnodup).mpr ⟨⟨key, hplan⟩, rfl⟩
  rw [← hfound, map_edgeID_lanesOf, List.map_map]
  exact ((List.perm_insertionSort _ group).map _).symm

theorem evenLanes (hnodup : (edges.map NetGraphEdge.id).Nodup) :
    EvenLanes edges (buildEdgeRenderPlans platform edges) := by
  have hplans : ∀ {β : Type} (f : NetGraphEdgeRenderPlan → β) (key : String),
      ((edges.filter fun edge => edgeCorridorKey edge = key).filterMap fun edge =>
        (buildEdgeRenderPlans platform edges edge.id).map f).Perm
        ((lanesOf platform key
          (edges.filter fun edge => edgeCorridorKey edge = key)).map f) := by
    intro β f key
    have hperm := (perm_plans platform hnodup key).filterMap (Option.map f)
    rw [List.filterMap_map, List.filterMap_map] at hperm
    refine hperm.trans (List.Perm.of_eq ?_)
    rw [← List.filterMap_eq_map]
    rfl
  refine
    { planned := fun edge hedge => ?_
      lanes := fun key => ?_
      offsets := fun key => ?_ }
  · have hmem : buildEdgeRenderPlans platform edges edge.id ∈
        (lanesOf platform (edgeCorridorKey edge)
          (edges.filter fun other => edgeCorridorKey other = edgeCorridorKey edge)).map some := by
      refine (perm_plans platform hnodup _).mem_iff.mp (List.mem_map.mpr ⟨edge, ?_, rfl⟩)
      exact List.mem_filter.mpr ⟨hedge, decide_eq_true rfl⟩
    obtain ⟨plan, hplan, hfound⟩ := List.mem_map.mp hmem
    obtain ⟨hkey, hcount, -⟩ := mem_lanesOf platform hplan
    exact ⟨plan, hfound.symm, ((buildEdgeRenderPlans_eq_some_iff hnodup).mp hfound.symm).2, hkey,
      hcount⟩
  · rw [← map_laneIndex_lanesOf platform key]
    exact hplans _ key
  · rw [(hplans _ key).sum_eq, ← sum_offsets
      (edges.filter fun edge => edgeCorridorKey edge = key).length,
      ← map_laneIndex_lanesOf platform key, List.map_map]
    refine congrArg List.sum (List.map_congr_left fun plan hplan => ?_)
    rw [(mem_lanesOf platform hplan).2.2, Function.comp_apply]

end Lanes

end CartoLive.Web.Graph
