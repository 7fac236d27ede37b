import CartoLive.App.Backend

/-!
# The live and the reconciled node

A node update is built twice: by the worker, which narrows the regions of the
public node, and by a reconcile, which narrows the regions of the stored node and
looks for an observer with its key. The two agree, and show public regions only,
exactly when there was nothing to narrow, no observer has the key, and there is a
region where regions are restricted.
-/

namespace CartoLive.Theorems.NodeAgreement

open CartoLive.Go CartoLive.Live CartoLive.App

section Env

variable [LiveEnv] {filter : PublicIATAFilter} {state : State} {node : Node} {item : PublicNode}

/-! ## The reconciled node -/

/-- The observers that `FilterState` leaves. -/
def admittedObservers (filter : PublicIATAFilter) (state : State) : List Observer :=
  (filter.filterState state).1.observers

def admittedNode (filter : PublicIATAFilter) (node : Node) : Option Node :=
  if !filter.enabled then some node else filterNode filter node

/-- The public node that `FilterState` and `BuildPublicLiveState` make of a
stored one. -/
def reconciledNode (filter : PublicIATAFilter) (state : State) (node : Node) : Option PublicNode :=
  (admittedNode filter node).bind fun node =>
    (publicNodeFromNode node).map fun item =>
      { item with
        isObserver := decide (toUpper node.publicKey ∈
          (admittedObservers filter state).map fun observer => toUpper observer.publicKey) }

/-- The reconciled nodes are the reconciled stored nodes, and observers that no
node stands for. -/
theorem nodes_buildPublicLiveState (filter : PublicIATAFilter) (state : State)
    (stats : PublicStats) (now : Int) :
    ∃ observers : List Observer, (buildPublicLiveState (filter.filterState state).1 stats now).nodes =
      state.nodes.filterMap (reconciledNode filter state) ++
        observers.filterMap publicNodeFromObserver := by
  have hnodes : (filter.filterState state).1.nodes =
      state.nodes.filterMap (admittedNode filter) := by
    unfold PublicIATAFilter.filterState admittedNode
    split
    · exact (List.filterMap_some ..).symm
    · rfl
  refine ⟨(filter.filterState state).1.observers.filter fun observer =>
    toUpper observer.publicKey ∉ ((filter.filterState state).1.nodes.filter fun node =>
      (publicNodeFromNode node).isSome).map fun node => toUpper node.publicKey, ?_⟩
  show buildPublicNodes (filter.filterState state).1.nodes (filter.filterState state).1.observers = _
  unfold buildPublicNodes
  dsimp only
  rw [hnodes, List.filterMap_filterMap]
  rfl

/-! ## Agreement -/

/-- What the claim asks of a published node. -/
structure NodeAgrees (filter : PublicIATAFilter) (state : State) (stats : PublicStats) (now : Int)
    (node : Node) (item : PublicNode) : Prop where
  /-- The reconciled state has the same node, apart from its sequence. -/
  reconciled : ∃ x, reconciledNode filter state node = some x ∧
    x ∈ (buildPublicLiveState (filter.filterState state).1 stats now).nodes ∧
    ∀ seq, { x with seq } = { item with seq }
  iatas : ∀ region ∈ item.iatasHeardIn, filter.allows region = true
  regions : ∀ region ∈ item.regionsHeardIn, filter.allows region = true
  eventRegion : filter.allows (publicEventFromData "nodeUpdate" (.node item) now).region = true

/-- When the two paths agree. -/
structure Agreeable (filter : PublicIATAFilter) (state : State) (node : Node) : Prop where
  /-- Every region of the node is public, and in comparison form. -/
  regions : filter.allowedIATAs node.iatasHeardIn = node.iatasHeardIn
  /-- No admitted observer has the key of the node. -/
  notObserver : toUpper node.publicKey ∉
    (admittedObservers filter state).map fun observer => toUpper observer.publicKey
  someRegion : node.iatasHeardIn ≠ [] ∨ filter.enabled = false

instance : Decidable (Agreeable filter state node) :=
  decidable_of_iff (_ ∧ _ ∧ _) ⟨fun h => ⟨h.1, h.2.1, h.2.2⟩, fun h => ⟨h.1, h.2, h.3⟩⟩

/-- What the worker publishes of a node. -/
theorem broadcast_spec {iata : String} (h : broadcastNodeUpdateForIATA filter node iata = some item) :
    ∃ base, publicNodeFromNode node = some base ∧
      item = { base with iatasHeardIn := filter.allowedIATAs node.iatasHeardIn } ∧
      (node.iatasHeardIn = [] ∨ filter.allowedIATAs node.iatasHeardIn ≠ []) := by
  unfold broadcastNodeUpdateForIATA at h
  split at h
  · cases h
  · obtain ⟨base, hbase, h⟩ := Option.bind_eq_some_iff.mp h
    have hiatas : base.iatasHeardIn = node.iatasHeardIn := by
      unfold publicNodeFromNode at hbase
      split at hbase
      · cases hbase
      · split at hbase <;> cases hbase
        rfl
    dsimp only at h
    rw [hiatas] at h
    split at h
    · cases h
    · rename_i hpublic
      cases h
      refine ⟨base, hbase, rfl, ?_⟩
      by_contra hnone
      push Not at hnone
      exact hpublic ⟨List.length_pos_iff.mpr hnone.1, by simp [hnone.2]⟩

/-- A public node with other regions. -/
theorem publicNodeFromNode_narrow {base : PublicNode} (h : publicNodeFromNode node = some base)
    (iatas : List String)
    (hiatas : iatas ≠ [] → ∃ region ∈ iatas, upperTrim region ≠ "") :
    publicNodeFromNode { node with iatasHeardIn := iatas } =
      some { base with iatasHeardIn := iatas, regionsHeardIn := iatas } := by
  have hnarrow : (publicNodeMapInclusion { node with iatasHeardIn := iatas }
      (newPublicIATAFilter [])).mappable =
      (coordinateInclusion node.latitude node.longitude mapIncludeNodePositionUsed).mappable := by
    unfold publicNodeMapInclusion
    rw [if_neg]
    rintro ⟨hpos, hnone⟩
    obtain ⟨region, hmem, hne⟩ := hiatas (List.length_pos_iff.mp hpos)
    have hkept : upperTrim region ∈ (newPublicIATAFilter []).allowedIATAs iatas :=
      List.mem_filter.mpr ⟨List.mem_map_of_mem hmem,
        decide_eq_true ⟨hne, PublicIATAFilter.allows_of_disabled rfl _⟩⟩
    rw [List.length_eq_zero_iff.mp hnone] at hkept
    cases hkept
  unfold publicNodeFromNode at h ⊢
  rw [hnarrow]
  split at h
  · cases h
  · rename_i hmappable
    have hwhole : (coordinateInclusion node.latitude node.longitude
        mapIncludeNodePositionUsed).mappable = true := by
      unfold publicNodeMapInclusion at hmappable
      split at hmappable
      · simp at hmappable
      · simpa using hmappable
    rw [hwhole]
    dsimp only [Bool.not_true, Bool.false_eq_true, if_false]
    split at h
    · rename_i latitude longitude hlat hlng
      cases h
      simp
    · cases h

/-- The reconciled node of a published one. -/
theorem reconciled_spec (state : State) {base : PublicNode} (h : publicNodeFromNode node = some base)
    (hpublic : node.iatasHeardIn = [] ∨ filter.allowedIATAs node.iatasHeardIn ≠ []) :
    reconciledNode filter state node = some
      { base with
        iatasHeardIn := if filter.enabled then filter.allowedIATAs node.iatasHeardIn
          else node.iatasHeardIn
        regionsHeardIn := if filter.enabled then filter.allowedIATAs node.iatasHeardIn
          else node.iatasHeardIn
        isObserver := decide (toUpper node.publicKey ∈
          (admittedObservers filter state).map fun observer => toUpper observer.publicKey) } := by
  unfold reconciledNode admittedNode
  cases henabled : filter.enabled with
  | false =>
    have hiatas : base.iatasHeardIn = node.iatasHeardIn ∧
        base.regionsHeardIn = node.iatasHeardIn := by
      unfold publicNodeFromNode at h
      split at h
      · cases h
      · split at h <;> cases h
        exact ⟨rfl, rfl⟩
    simp [h, ← hiatas.1]
    exact hiatas.2.trans hiatas.1.symm
  | true =>
    have hkept : filterNode filter node =
        some { node with iatasHeardIn := filter.allowedIATAs node.iatasHeardIn } := by
      unfold filterNode
      refine if_pos (hpublic.imp (fun h => ?_) fun h => ?_)
      · rw [h]
        rfl
      · exact List.length_pos_iff.mpr h
    have hnarrow := publicNodeFromNode_narrow h (filter.allowedIATAs node.iatasHeardIn)
      fun hne => by
        obtain ⟨region, hregion⟩ := List.exists_mem_of_ne_nil _ hne
        obtain ⟨hmem, hkeep⟩ := List.mem_filter.mp hregion
        obtain ⟨raw, -, rfl⟩ := List.mem_map.mp hmem
        refine ⟨upperTrim raw, hregion, ?_⟩
        rw [upperTrim_upperTrim]
        simp only [decide_eq_true_eq] at hkeep
        exact hkeep.1
    simp [hkept, hnarrow]

omit [LiveEnv] in
/-- The region of a node update is the first one that the node lists. -/
theorem allows_eventRegion (item : PublicNode) (now : Int) :
    (publicEventFromData "nodeUpdate" (.node item) now).region =
      upperTrim ((item.regionsHeardIn ++ item.iatasHeardIn).head?.getD "") := rfl

/-- **The two paths agree** on a published node exactly when there was nothing to
narrow, no observer has its key, and it has a region or regions do not matter. -/
theorem node_agrees_iff (filter : PublicIATAFilter) (state : State) (stats : PublicStats)
    (now : Int) {node : Node} (hnode : node ∈ state.nodes) (iata : String) {item : PublicNode}
    (hitem : broadcastNodeUpdateForIATA filter node iata = some item) :
    NodeAgrees filter state stats now node item ↔ Agreeable filter state node := by
  obtain ⟨base, hbase, rfl, hpublic⟩ := broadcast_spec hitem
  have hreconciled := reconciled_spec state hbase hpublic
  have hregions : base.regionsHeardIn = node.iatasHeardIn ∧ base.isObserver = false := by
    unfold publicNodeFromNode at hbase
    split at hbase
    · cases hbase
    · split at hbase <;> cases hbase
      exact ⟨rfl, rfl⟩
  constructor
  · intro h
    obtain ⟨x, hx, -, hsame⟩ := h.reconciled
    rw [hreconciled] at hx
    cases hx
    have hsame := hsame 0
    have hiatas := congrArg PublicNode.iatasHeardIn hsame
    have hregion := congrArg PublicNode.regionsHeardIn hsame
    have hobserver := congrArg PublicNode.isObserver hsame
    dsimp only at hiatas hregion hobserver
    rw [hregions.1] at hregion
    rw [hregions.2] at hobserver
    have hkept : filter.allowedIATAs node.iatasHeardIn = node.iatasHeardIn := by
      cases henabled : filter.enabled with
      | false =>
        rw [henabled] at hiatas
        exact hiatas.symm
      | true =>
        rw [henabled] at hregion
        exact hregion
    refine { regions := hkept, notObserver := of_decide_eq_false hobserver, someRegion := ?_ }
    by_contra hnone
    push Not at hnone
    have hallowed := h.eventRegion
    rw [allows_eventRegion] at hallowed
    dsimp only at hallowed
    rw [hregions.1, hkept, hnone.1] at hallowed
    have henabled : filter.enabled = true := by simpa using hnone.2
    have hrejected : filter.allows "" = false := by
      simp [PublicIATAFilter.allows, henabled, show upperTrim "" = "" by decide]
    have hallowed : filter.allows (upperTrim "") = true := hallowed
    rw [PublicIATAFilter.allows_upperTrim, hrejected] at hallowed
    cases hallowed
  · intro h
    obtain ⟨observers, hnodes⟩ := nodes_buildPublicLiveState filter state stats now
    have hallows : ∀ region ∈ node.iatasHeardIn, filter.allows region = true := fun region hregion =>
      PublicIATAFilter.allows_of_mem_allowedIATAs (h.regions.symm ▸ hregion)
    refine
      { reconciled := ⟨_, hreconciled, ?_, fun seq => ?_⟩
        iatas := fun region hregion =>
          PublicIATAFilter.allows_of_mem_allowedIATAs hregion
        regions := fun region hregion => hallows region (hregions.1 ▸ hregion)
        eventRegion := ?_ }
    · rw [hnodes]
      exact List.mem_append_left _ (List.mem_filterMap.mpr ⟨node, hnode, hreconciled⟩)
    · have hkeep : (if filter.enabled then filter.allowedIATAs node.iatasHeardIn
          else node.iatasHeardIn) = node.iatasHeardIn := by
        split
        · exact h.regions
        · rfl
      rw [hkeep, h.regions, decide_eq_false h.notObserver, ← hregions.2, ← hregions.1]
    · rw [allows_eventRegion]
      dsimp only
      rw [hregions.1, h.regions, PublicIATAFilter.allows_upperTrim]
      rcases h.someRegion with hsome | hdisabled
      · obtain ⟨region, rest, hiatas⟩ := List.exists_cons_of_ne_nil hsome
        rw [hiatas]
        exact hallows region (by simp [hiatas])
      · exact PublicIATAFilter.allows_of_disabled hdisabled _

end Env

/-! ## Runs -/

section Runs

attribute [local instance] defaultEnv

def emptyStats : PublicStats := emptyPublicLiveState.stats

def stateOf (nodes : List Node) (observers : List Observer) : State :=
  { serverTime := 0, nodes, observers, routes := [], recentPackets := [], recentEdgeEvents := [] }

/-- Where only Ottawa is public, a node that was heard there agrees. -/
theorem ottawaNode_agrees :
    NodeAgrees (newPublicIATAFilter ["YOW"]) (stateOf [sampleNode "AB" 5] []) emptyStats 0
      (sampleNode "AB" 5)
      { PublicNode.sample (publicNodeID "AB") 5 with role := "repeater" } :=
  (node_agrees_iff (newPublicIATAFilter ["YOW"]) (stateOf [sampleNode "AB" 5] []) emptyStats 0
    (by decide +kernel) "YOW" (by decide +kernel)).mpr (by decide +kernel)

/-- A node that was heard in Montreal too. -/
def twoRegionNode : Node := { sampleNode "AB" 5 with iatasHeardIn := ["YOW", "YUL"] }

/-- Where only Ottawa is public, its update shows Montreal. -/
theorem excluded_region_published :
    ¬ ∀ (filter : PublicIATAFilter) (state : State) (stats : PublicStats) (now : Int) (node : Node)
      (iata : String) (item : PublicNode), node ∈ state.nodes →
      broadcastNodeUpdateForIATA filter node iata = some item →
      NodeAgrees filter state stats now node item := by
  intro h
  have hagrees := h (newPublicIATAFilter ["YOW"]) (stateOf [twoRegionNode] []) emptyStats 0
    twoRegionNode "YOW"
    { PublicNode.sample (publicNodeID "AB") 5 with
      role := "repeater", regionsHeardIn := ["YOW", "YUL"] }
    (by decide +kernel) (by decide +kernel)
  exact absurd (hagrees.regions "YUL" (by decide +kernel)) (by decide +kernel)

end Runs

end CartoLive.Theorems.NodeAgreement
