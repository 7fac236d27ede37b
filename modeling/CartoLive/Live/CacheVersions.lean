import CartoLive.Live.PublicCache

/-!
# The cache as lists of versions

Nodes, activity and pulses go through the cache in the same way: an update is
put in front, an evicted item loses its journal entry, and a replacement lays
the journaled items over the fresh ones. Seen through `Version` (key, time stamp,
sequence) one statement covers the three kinds; these are the facts that the
invariants of the backend rest on.
-/

namespace CartoLive.Live

open CartoLive.Lib

inductive Kind
  | node
  | activity
  | pulse
  deriving DecidableEq

/-- What a merge looks at. -/
structure Version where
  key : String
  stamp : Int
  seq : Int
  deriving DecidableEq

def versionView : View Version String :=
  { key := Version.key, stamp := Version.stamp, seq := Version.seq }

/-- The version of an item. -/
def View.version {α : Type} (w : View α String) (a : α) : Version :=
  { key := w.key a, stamp := w.stamp a, seq := w.seq a }

def PublicData.kind : PublicData → Kind
  | .node _ => .node
  | .activity _ => .activity
  | .pulse _ => .pulse

def PublicData.version : PublicData → Version
  | .node item => View.version nodeView item
  | .activity item => View.version activityView item
  | .pulse item => View.version pulseView item

/-- The versions of one kind in a state. -/
def PublicLiveState.versions (state : PublicLiveState) : Kind → List Version
  | .node => state.nodes.map (View.version nodeView)
  | .activity => state.recentActivity.map (View.version activityView)
  | .pulse => state.recentPulses.map (View.version pulseView)

/-- The size limit of a kind. -/
def Kind.limit : Kind → Nat
  | .node => publicCacheMaxNodes
  | .activity => publicCacheMaxActivity
  | .pulse => publicCacheMaxPulses

def PublicStateCache.journal (c : PublicStateCache) : Kind → Journal
  | .node => c.nodeMutations
  | .activity => c.activityMutations
  | .pulse => c.pulseMutations

/-- `v` stands for an update with version `u`: it is the same entity with at
least its sequence or with a later time stamp. -/
def Version.Covers (v u : Version) : Prop := v.key = u.key ∧ (u.stamp < v.stamp ∨ u.seq ≤ v.seq)

instance (v u : Version) : Decidable (v.Covers u) := by
  unfold Version.Covers
  infer_instance

theorem Version.Covers.refl (v : Version) : v.Covers v := ⟨rfl, Or.inr (le_refl _)⟩

@[simp] theorem seq_version (data : PublicData) : data.version.seq = data.seq := by
  cases data <;> rfl

@[simp] theorem kind_publicEventDataWithSeq (data : PublicData) (seq : Int) :
    (publicEventDataWithSeq data seq).kind = data.kind := by
  cases data <;> rfl

/-! ## A state built from the database -/

section Env

variable [LiveEnv]

theorem seq_publicNodeFromNode {node : Node} {item : PublicNode}
    (h : publicNodeFromNode node = some item) : item.seq = 0 := by
  unfold publicNodeFromNode at h
  split at h
  · cases h
  · split at h <;> cases h
    rfl

theorem seq_publicNodeFromObserver {observer : Observer} {item : PublicNode}
    (h : publicNodeFromObserver observer = some item) : item.seq = 0 := by
  unfold publicNodeFromObserver at h
  split at h
  · cases h
  · dsimp only at h
    split at h <;> cases h
    rfl

theorem seq_publicRoutePulseFromEdge {edge : EdgeEvent} {index : PathHash3Index}
    {item : PublicRoutePulse} (h : publicRoutePulseFromEdge edge index = some item) :
    item.seq = 0 := by
  unfold publicRoutePulseFromEdge at h
  dsimp only at h
  split at h <;> cases h
  rfl

theorem seq_of_mem_buildPublicNodes {nodes : List Node} {observers : List Observer}
    {item : PublicNode} (h : item ∈ buildPublicNodes nodes observers) : item.seq = 0 := by
  rcases List.mem_append.mp h with h | h
  · obtain ⟨node, -, hnode⟩ := List.mem_filterMap.mp h
    obtain ⟨inner, hinner, rfl⟩ := Option.map_eq_some_iff.mp hnode
    have hseq := seq_publicNodeFromNode hinner
    exact hseq
  · obtain ⟨observer, -, hobserver⟩ := List.mem_filterMap.mp h
    exact seq_publicNodeFromObserver hobserver

/-- What comes from the database carries no sequence. -/
theorem seq_of_mem_buildPublicLiveState {state : State} {stats : PublicStats} {now : Int}
    {k : Kind} {v : Version} (h : v ∈ (buildPublicLiveState state stats now).versions k) :
    v.seq = 0 := by
  cases k with
  | node =>
    obtain ⟨item, hitem, rfl⟩ := List.mem_map.mp h
    exact seq_of_mem_buildPublicNodes hitem
  | activity =>
    obtain ⟨item, hitem, rfl⟩ := List.mem_map.mp h
    obtain ⟨packet, -, rfl⟩ := List.mem_map.mp hitem
    rfl
  | pulse =>
    obtain ⟨item, hitem, rfl⟩ := List.mem_map.mp h
    obtain ⟨edge, -, hedge⟩ := List.mem_filterMap.mp (List.mem_of_mem_take hitem)
    exact seq_publicRoutePulseFromEdge hedge

end Env

/-! ## Live updates -/

namespace PublicStateCache

variable {c : PublicStateCache}

/-- A change that leaves the served lists, the cursor and the journal alone. -/
structure Quiet (c c' : PublicStateCache) : Prop where
  ready : c'.ready = c.ready
  filter : c'.filter = c.filter
  versions : ∀ k, c'.state.versions k = c.state.versions k
  recentActivity : c'.state.recentActivity = c.state.recentActivity
  routes : c'.state.routes = c.state.routes
  latestSeq : c'.state.stats.latestSeq = c.state.stats.latestSeq
  generation : c.mutationGeneration ≤ c'.mutationGeneration
  journal : ∀ k, c'.journal k = c.journal k
  serialized : c'.serialized = c.serialized

theorem Quiet.refl (c : PublicStateCache) : Quiet c c :=
  ⟨rfl, rfl, fun _ => rfl, rfl, rfl, rfl, le_refl _, fun _ => rfl, rfl⟩

theorem recordExcludedIATA_quiet (c : PublicStateCache) (iata : String) :
    Quiet c (c.recordExcludedIATA iata) :=
  ⟨rfl, rfl, fun _ => rfl, rfl, rfl, rfl, le_refl _, fun k => by cases k <;> rfl, rfl⟩

theorem setPacketCount_quiet (c : PublicStateCache) (count : Int) :
    Quiet c (c.setPacketCount count) := by
  unfold setPacketCount
  split
  · exact .refl c
  · exact ⟨rfl, rfl, fun k => by cases k <;> rfl, rfl, rfl, rfl, Nat.le_succ _,
      fun k => by cases k <;> rfl, rfl⟩

/-- The cached versions that changed after a generation: what a replacement that
started then preserves. -/
def preserved (c : PublicStateCache) (generation : Nat) (k : Kind) : List Version :=
  (c.state.versions k).filter fun v => generation < c.journal k v.key

theorem Quiet.preserved {c c' : PublicStateCache} (h : Quiet c c') (g : Nat) (k : Kind) :
    c'.preserved g k = c.preserved g k := by
  rw [PublicStateCache.preserved, h.versions, h.journal]
  rfl

/-- The list of a kind with an update in front, before it is cut to the limit;
only nodes drop the older item of the same entity. -/
def nextVersions (c : PublicStateCache) (data : PublicData) : List Version :=
  data.version ::
    match data.kind with
    | .node => (c.state.versions .node).filter fun v => v.key ≠ data.version.key
    | .activity => c.state.versions .activity
    | .pulse => c.state.versions .pulse

/-- The versions that an update pushes out of its list. -/
def evicted (c : PublicStateCache) (data : PublicData) : List Version :=
  (c.nextVersions data).drop data.kind.limit

@[simp] theorem recordLiveUpdateLocked_ready (c : PublicStateCache) (now : Int) :
    (c.recordLiveUpdateLocked now).ready = c.ready := by
  unfold recordLiveUpdateLocked
  split <;> rfl

@[simp] theorem recordLiveUpdateLocked_filter (c : PublicStateCache) (now : Int) :
    (c.recordLiveUpdateLocked now).filter = c.filter := by
  unfold recordLiveUpdateLocked
  split <;> rfl

@[simp] theorem recordLiveUpdateLocked_versions (c : PublicStateCache) (now : Int) (k : Kind) :
    (c.recordLiveUpdateLocked now).state.versions k = c.state.versions k := by
  unfold recordLiveUpdateLocked
  split <;> cases k <;> rfl

@[simp] theorem recordLiveUpdateLocked_routes (c : PublicStateCache) (now : Int) :
    (c.recordLiveUpdateLocked now).state.routes = c.state.routes := by
  unfold recordLiveUpdateLocked
  split <;> rfl

@[simp] theorem recordLiveUpdateLocked_stats (c : PublicStateCache) (now : Int) :
    (c.recordLiveUpdateLocked now).state.stats = c.state.stats := by
  unfold recordLiveUpdateLocked
  split <;> rfl

@[simp] theorem recordLiveUpdateLocked_journal (c : PublicStateCache) (now : Int) (k : Kind) :
    (c.recordLiveUpdateLocked now).journal k = c.journal k := by
  unfold recordLiveUpdateLocked
  split <;> cases k <;> rfl

@[simp] theorem recordLiveUpdateLocked_generation (c : PublicStateCache) (now : Int) :
    (c.recordLiveUpdateLocked now).mutationGeneration = c.mutationGeneration := by
  unfold recordLiveUpdateLocked
  split <;> rfl

/-- The serialization after a live update is the old one or the new state's. -/
theorem recordLiveUpdateLocked_serialized (c : PublicStateCache) (now : Int) :
    (c.recordLiveUpdateLocked now).serialized = c.serialized ∨
      (c.recordLiveUpdateLocked now).serialized =
        some (c.recordLiveUpdateLocked now).state := by
  unfold recordLiveUpdateLocked
  split
  · exact Or.inr rfl
  · exact Or.inl rfl

@[simp] theorem advanceServerTime_versions (state : PublicLiveState) (heardAt : Int) (k : Kind) :
    (advanceServerTime state heardAt).versions k = state.versions k := by
  unfold advanceServerTime
  split <;> cases k <;> rfl

@[simp] theorem advanceServerTime_routes (state : PublicLiveState) (heardAt : Int) :
    (advanceServerTime state heardAt).routes = state.routes := by
  unfold advanceServerTime
  split <;> rfl

@[simp] theorem advanceServerTime_latestSeq (state : PublicLiveState) (heardAt : Int) :
    (advanceServerTime state heardAt).stats.latestSeq = state.stats.latestSeq := by
  unfold advanceServerTime
  split <;> rfl

/-- A cache that is still warming drops live updates. -/
theorem apply_not_ready (h : c.ready = false) (now : Int) (data : PublicData) :
    c.apply now data = c := by
  cases data <;> simp [apply, applyNode, applyActivity, applyRoutePulse, h]

/-- What a live update does to a ready cache. -/
structure Applied (c c' : PublicStateCache) (data : PublicData) : Prop where
  ready : c'.ready = true
  filter : c'.filter = c.filter
  versions : c'.state.versions data.kind = (c.nextVersions data).take data.kind.limit
  versions_other : ∀ k, k ≠ data.kind → c'.state.versions k = c.state.versions k
  routes : c'.state.routes = c.state.routes
  latestSeq : c'.state.stats.latestSeq = max c.state.stats.latestSeq data.seq
  generation : c'.mutationGeneration = c.mutationGeneration + 1
  journal : c'.journal data.kind = Journal.record (c.journal data.kind)
    ((c.evicted data).map Version.key) data.version.key (c.mutationGeneration + 1)
  journal_other : ∀ k, k ≠ data.kind → c'.journal k = c.journal k
  serialized : c'.serialized = c.serialized ∨ c'.serialized = some c'.state

theorem applyNode_applied (h : c.ready = true) (now : Int) (node : PublicNode) :
    Applied c (c.applyNode now node) (.node node) := by
  have hfilter : (c.state.nodes.filter fun item => item.id ≠ node.id).map (View.version nodeView) =
      (c.state.versions .node).filter fun v => v.key ≠ node.id := by
    rw [PublicLiveState.versions, List.filter_map]
    rfl
  simp only [applyNode, h, Bool.not_true, Bool.false_eq_true, if_false]
  refine
    { ready := by simp
      filter := by simp
      versions := ?_
      versions_other := fun k hk => ?_
      routes := by simp
      latestSeq := by simp [advanceLatestSeq, PublicData.seq]
      generation := by simp
      journal := ?_
      journal_other := fun k hk => ?_
      serialized := recordLiveUpdateLocked_serialized _ now }
  · rw [recordLiveUpdateLocked_versions]
    show List.map (View.version nodeView) (List.take _ _) = _
    rw [List.map_take, List.map_cons, hfilter]
    rfl
  · rw [recordLiveUpdateLocked_versions]
    cases k with
    | node => exact absurd rfl hk
    | activity => rfl
    | pulse => rfl
  · rw [recordLiveUpdateLocked_journal]
    show Journal.record c.nodeMutations _ node.id _ = Journal.record c.nodeMutations _ node.id _
    rw [evicted, nextVersions]
    show Journal.record _ (List.map PublicNode.id (List.drop _ _)) _ _ =
      Journal.record _ (List.map Version.key (List.drop publicCacheMaxNodes
        (View.version nodeView node :: (c.state.versions .node).filter fun v =>
          v.key ≠ node.id))) _ _
    rw [← hfilter, ← List.map_cons, ← List.map_drop, List.map_map]
    rfl
  · rw [recordLiveUpdateLocked_journal]
    cases k with
    | node => exact absurd rfl hk
    | activity => rfl
    | pulse => rfl

theorem applyActivity_applied (h : c.ready = true) (now : Int) (activity : PublicActivity) :
    Applied c (c.applyActivity now activity) (.activity activity) := by
  simp only [applyActivity, h, Bool.not_true, Bool.false_eq_true, if_false]
  refine
    { ready := by simp
      filter := by simp
      versions := ?_
      versions_other := fun k hk => ?_
      routes := by simp
      latestSeq := by simp [advanceLatestSeq, PublicData.seq]
      generation := by simp
      journal := ?_
      journal_other := fun k hk => ?_
      serialized := recordLiveUpdateLocked_serialized _ now }
  · rw [recordLiveUpdateLocked_versions]
    refine (advanceServerTime_versions _ activity.heardAt .activity).trans ?_
    show List.map (View.version activityView) (List.take _ _) = _
    rw [List.map_take, List.map_cons]
    rfl
  · rw [recordLiveUpdateLocked_versions]
    cases k with
    | activity => exact absurd rfl hk
    | node => exact advanceServerTime_versions _ activity.heardAt .node
    | pulse => exact advanceServerTime_versions _ activity.heardAt .pulse
  · rw [recordLiveUpdateLocked_journal]
    show Journal.record _ (List.map PublicActivity.id (List.drop _ _)) activity.id _ =
      Journal.record _ (List.map Version.key (List.drop publicCacheMaxActivity
        (View.version activityView activity :: c.state.versions .activity))) activity.id _
    rw [PublicLiveState.versions, ← List.map_cons, ← List.map_drop, List.map_map]
    rfl
  · rw [recordLiveUpdateLocked_journal]
    cases k with
    | activity => exact absurd rfl hk
    | node => rfl
    | pulse => rfl

theorem applyRoutePulse_applied (h : c.ready = true) (now : Int) (pulse : PublicRoutePulse) :
    Applied c (c.applyRoutePulse now pulse) (.pulse pulse) := by
  simp only [applyRoutePulse, h, Bool.not_true, Bool.false_eq_true, if_false]
  refine
    { ready := by simp
      filter := by simp
      versions := ?_
      versions_other := fun k hk => ?_
      routes := by simp
      latestSeq := by simp [advanceLatestSeq, PublicData.seq]
      generation := by simp
      journal := ?_
      journal_other := fun k hk => ?_
      serialized := recordLiveUpdateLocked_serialized _ now }
  · rw [recordLiveUpdateLocked_versions]
    refine (advanceServerTime_versions _ pulse.heardAt .pulse).trans ?_
    show List.map (View.version pulseView) (List.take _ _) = _
    rw [List.map_take, List.map_cons]
    rfl
  · rw [recordLiveUpdateLocked_versions]
    cases k with
    | pulse => exact absurd rfl hk
    | node => exact advanceServerTime_versions _ pulse.heardAt .node
    | activity => exact advanceServerTime_versions _ pulse.heardAt .activity
  · rw [recordLiveUpdateLocked_journal]
    show Journal.record _ (List.map PublicRoutePulse.id (List.drop _ _)) pulse.id _ =
      Journal.record _ (List.map Version.key (List.drop publicCacheMaxPulses
        (View.version pulseView pulse :: c.state.versions .pulse))) pulse.id _
    rw [PublicLiveState.versions, ← List.map_cons, ← List.map_drop, List.map_map]
    rfl
  · rw [recordLiveUpdateLocked_journal]
    cases k with
    | pulse => exact absurd rfl hk
    | node => rfl
    | activity => rfl

/-- The spec of `Apply*` on a ready cache. -/
theorem apply_applied (h : c.ready = true) (now : Int) (data : PublicData) :
    Applied c (c.apply now data) data := by
  cases data with
  | node item => exact applyNode_applied h now item
  | activity item => exact applyActivity_applied h now item
  | pulse item => exact applyRoutePulse_applied h now item

/-- After a live update a list holds the update and items that it held before. -/
theorem Applied.mem_versions {c' : PublicStateCache} {data : PublicData} (h : Applied c c' data)
    {k : Kind} {v : Version} (hv : v ∈ c'.state.versions k) :
    k = data.kind ∧ v = data.version ∨ v ∈ c.state.versions k := by
  by_cases hk : k = data.kind
  · subst hk
    rw [h.versions] at hv
    rcases List.mem_cons.mp (List.mem_of_mem_take hv) with rfl | hv
    · exact Or.inl ⟨rfl, rfl⟩
    · right
      cases hkind : data.kind <;> rw [hkind] at hv
      · exact List.mem_of_mem_filter hv
      · exact hv
      · exact hv
  · exact Or.inr (h.versions_other k hk ▸ hv)

/-- The update itself stands in front, journaled. -/
theorem Applied.mem_preserved {c' : PublicStateCache} {data : PublicData} (h : Applied c c' data)
    {g : Nat} (hg : g ≤ c.mutationGeneration) : data.version ∈ c'.preserved g data.kind := by
  refine List.mem_filter.mpr ⟨?_, ?_⟩
  · rw [h.versions, nextVersions]
    cases data.kind <;> exact List.mem_cons_self
  · rw [h.journal, Journal.record, if_pos rfl]
    exact decide_eq_true (Nat.lt_succ_of_le hg)

/-- An item stays in its list, or it is evicted, or the update replaces it. -/
theorem Applied.keeps {c' : PublicStateCache} {data : PublicData} (h : Applied c c' data)
    {k : Kind} {v : Version} (hv : v ∈ c.state.versions k) :
    v ∈ c'.state.versions k ∨
      k = data.kind ∧ (v ∈ c.evicted data ∨ v.key = data.version.key) := by
  by_cases hk : k = data.kind
  · subst hk
    have hnext : v ∈ c.nextVersions data ∨ v.key = data.version.key := by
      by_cases hkey : v.key = data.version.key
      · exact Or.inr hkey
      · refine Or.inl (List.mem_cons_of_mem _ ?_)
        cases hkind : data.kind <;> rw [hkind] at hv
        · exact List.mem_filter.mpr ⟨hv, decide_eq_true hkey⟩
        · exact hv
        · exact hv
    rcases hnext with hnext | hkey
    · rw [← List.take_append_drop data.kind.limit (c.nextVersions data)] at hnext
      rcases List.mem_append.mp hnext with hstays | hgoes
      · exact Or.inl (h.versions ▸ hstays)
      · exact Or.inr ⟨rfl, Or.inl hgoes⟩
    · exact Or.inr ⟨rfl, Or.inr hkey⟩
  · exact Or.inl (h.versions_other k hk ▸ hv)

theorem Applied.journal_le {c' : PublicStateCache} {data : PublicData} (h : Applied c c' data)
    (hc : ∀ k key, c.journal k key ≤ c.mutationGeneration) (k : Kind) (key : String) :
    c'.journal k key ≤ c'.mutationGeneration := by
  have hle := hc k key
  rw [h.generation]
  by_cases hk : k = data.kind
  · subst hk
    rw [h.journal, Journal.record]
    split
    · exact le_refl _
    · split <;> omega
  · rw [h.journal_other k hk]
    omega

/-! ## Replacement -/

/-- A replacement lays the preserved versions over the fresh ones. -/
def Preserving (c : PublicStateCache) (expectedGeneration : Option Nat) (g : Nat) : Prop :=
  expectedGeneration = some g ∧ c.ready = true ∧ c.mutationGeneration ≠ g

theorem replacement_of_not_preserving {expectedGeneration : Option Nat}
    (h : ∀ g, ¬ c.Preserving expectedGeneration g) (fresh : PublicLiveState) :
    c.replacement fresh expectedGeneration = fresh := by
  unfold replacement
  cases expectedGeneration with
  | none => rfl
  | some g => exact if_neg fun hp => h g ⟨rfl, hp⟩

theorem replacement_of_preserving {expectedGeneration : Option Nat} {g : Nat}
    (h : c.Preserving expectedGeneration g) (fresh : PublicLiveState) :
    c.replacement fresh expectedGeneration = c.mergeMutationsAfterLocked fresh g := by
  obtain ⟨rfl, hp⟩ := h
  exact if_pos hp

theorem map_nodesAfter (c : PublicStateCache) (g : Nat) :
    (c.nodesAfter g).map (View.version nodeView) = c.preserved g .node := by
  rw [preserved, PublicLiveState.versions, List.filter_map]
  rfl

theorem map_activityAfter (c : PublicStateCache) (g : Nat) :
    (c.activityAfter g).map (View.version activityView) = c.preserved g .activity := by
  rw [preserved, PublicLiveState.versions, List.filter_map]
  rfl

theorem map_pulsesAfter (c : PublicStateCache) (g : Nat) :
    (c.pulsesAfter g).map (View.version pulseView) = c.preserved g .pulse := by
  rw [preserved, PublicLiveState.versions, List.filter_map]
  rfl

section Merge

variable {α : Type} {w : View α String} {before : α → α → Prop} [DecidableRel before]
  {fresh current : List α}

/-- A sorted merge, seen as versions, invents nothing. -/
theorem mem_versions_merge {v : Version}
    (h : v ∈ ((w.merge fresh current).insertionSort before).map (View.version w)) :
    v ∈ fresh.map (View.version w) ∨ v ∈ current.map (View.version w) := by
  obtain ⟨item, hitem, rfl⟩ := List.mem_map.mp h
  exact (View.mem_merge ((List.mem_insertionSort before).mp hitem)).imp
    (fun hm => List.mem_map_of_mem hm) fun hm => List.mem_map_of_mem hm

/-- An overlaid version is in the merge or has lost to one that is at least as
late. -/
theorem exists_atLeast_versions_merge {x : Version} (h : x ∈ current.map (View.version w)) :
    ∃ y ∈ ((w.merge fresh current).insertionSort before).map (View.version w),
      y.key = x.key ∧ versionView.AtLeast y x := by
  obtain ⟨item, hitem, rfl⟩ := List.mem_map.mp h
  obtain ⟨other, hother, hkey, hlate⟩ := View.exists_atLeast_of_mem_overlay (w := w)
    fresh hitem
  exact ⟨View.version w other,
    List.mem_map_of_mem ((List.mem_insertionSort before).mpr hother), hkey, hlate⟩

end Merge

/-- What a replacement installs comes from the fresh state or was preserved. -/
theorem mem_versions_replacement {expectedGeneration : Option Nat} {fresh : PublicLiveState}
    {k : Kind} {v : Version} (h : v ∈ (c.replacement fresh expectedGeneration).versions k) :
    v ∈ fresh.versions k ∨
      ∃ g, c.Preserving expectedGeneration g ∧ v ∈ c.preserved g k := by
  by_cases hp : ∃ g, c.Preserving expectedGeneration g
  · obtain ⟨g, hp⟩ := hp
    rw [replacement_of_preserving hp] at h
    refine Or.imp_right (fun hv => ⟨g, hp, hv⟩) ?_
    cases k with
    | node => exact (mem_versions_merge h).imp_right fun hv => map_nodesAfter c g ▸ hv
    | activity => exact (mem_versions_merge h).imp_right fun hv => map_activityAfter c g ▸ hv
    | pulse => exact (mem_versions_merge h).imp_right fun hv => map_pulsesAfter c g ▸ hv
  · rw [replacement_of_not_preserving fun g hg => hp ⟨g, hg⟩] at h
    exact Or.inl h

/-- A preserved version is in the replacement or has lost to one that is at
least as late. -/
theorem exists_atLeast_replacement {expectedGeneration : Option Nat} {g : Nat}
    (hp : c.Preserving expectedGeneration g) (fresh : PublicLiveState) {k : Kind} {x : Version}
    (h : x ∈ c.preserved g k) :
    ∃ y ∈ (c.replacement fresh expectedGeneration).versions k,
      y.key = x.key ∧ versionView.AtLeast y x := by
  rw [replacement_of_preserving hp]
  cases k with
  | node => exact exists_atLeast_versions_merge (map_nodesAfter c g ▸ h)
  | activity => exact exists_atLeast_versions_merge (map_activityAfter c g ▸ h)
  | pulse => exact exists_atLeast_versions_merge (map_pulsesAfter c g ▸ h)

/-- The sequences that a merge takes the maximum of. -/
def preservedSeqs (c : PublicStateCache) (g : Nat) : List Int :=
  (c.preserved g .node ++ c.preserved g .activity ++ c.preserved g .pulse).map Version.seq

theorem mem_preservedSeqs {g : Nat} {n : Int} :
    n ∈ c.preservedSeqs g ↔ ∃ k, ∃ x ∈ c.preserved g k, x.seq = n := by
  unfold preservedSeqs
  constructor
  · intro h
    obtain ⟨x, hx, hn⟩ := List.mem_map.mp h
    rcases List.mem_append.mp hx with hx | hx
    · rcases List.mem_append.mp hx with hx | hx
      · exact ⟨.node, x, hx, hn⟩
      · exact ⟨.activity, x, hx, hn⟩
    · exact ⟨.pulse, x, hx, hn⟩
  · rintro ⟨k, x, hx, rfl⟩
    refine List.mem_map_of_mem ?_
    cases k <;> simp [hx]

theorem latestSeq_mergeMutationsAfterLocked (c : PublicStateCache) (fresh : PublicLiveState)
    (g : Nat) :
    (c.mergeMutationsAfterLocked fresh g).stats.latestSeq =
      (c.preservedSeqs g).foldl max fresh.stats.latestSeq := by
  rw [preservedSeqs, ← map_nodesAfter, ← map_activityAfter, ← map_pulsesAfter]
  simp only [List.map_append, List.map_map]
  rfl

theorem le_foldl_max (l : List Int) (a : Int) :
    a ≤ l.foldl max a ∧ ∀ n ∈ l, n ≤ l.foldl max a := by
  induction l generalizing a with
  | nil => simp
  | cons b l ih =>
    obtain ⟨hle, hall⟩ := ih (max a b)
    simp only [List.foldl_cons, List.mem_cons, forall_eq_or_imp]
    exact ⟨(le_max_left a b).trans hle, (le_max_right a b).trans hle, hall⟩

theorem foldl_max_mem (l : List Int) (a : Int) : l.foldl max a = a ∨ l.foldl max a ∈ l := by
  induction l generalizing a with
  | nil => exact Or.inl rfl
  | cons b l ih =>
    rcases ih (max a b) with h | h
    · rcases le_total a b with hab | hab
      · rw [max_eq_right hab] at h
        exact Or.inr (by simp [h, max_eq_right hab])
      · rw [max_eq_left hab] at h
        exact Or.inl (by simpa [max_eq_left hab] using h)
    · exact Or.inr (List.mem_cons_of_mem _ h)

/-- The installed cursor is at least the fresh one. -/
theorem latestSeq_le_replacement (fresh : PublicLiveState) (expectedGeneration : Option Nat) :
    fresh.stats.latestSeq ≤ (c.replacement fresh expectedGeneration).stats.latestSeq := by
  by_cases hp : ∃ g, c.Preserving expectedGeneration g
  · obtain ⟨g, hp⟩ := hp
    rw [replacement_of_preserving hp, latestSeq_mergeMutationsAfterLocked]
    exact (le_foldl_max _ _).1
  · rw [replacement_of_not_preserving fun g hg => hp ⟨g, hg⟩]

/-- The installed cursor is at least that of everything preserved. -/
theorem seq_le_replacement {expectedGeneration : Option Nat} {g : Nat}
    (hp : c.Preserving expectedGeneration g) (fresh : PublicLiveState) {k : Kind} {x : Version}
    (h : x ∈ c.preserved g k) :
    x.seq ≤ (c.replacement fresh expectedGeneration).stats.latestSeq := by
  rw [replacement_of_preserving hp, latestSeq_mergeMutationsAfterLocked]
  exact (le_foldl_max _ _).2 _ (mem_preservedSeqs.mpr ⟨k, x, h, rfl⟩)

/-- The installed cursor is the fresh one or that of something preserved. -/
theorem latestSeq_replacement_cases (fresh : PublicLiveState) (expectedGeneration : Option Nat) :
    (c.replacement fresh expectedGeneration).stats.latestSeq = fresh.stats.latestSeq ∨
      ∃ g, c.Preserving expectedGeneration g ∧ ∃ k, ∃ x ∈ c.preserved g k,
        (c.replacement fresh expectedGeneration).stats.latestSeq = x.seq := by
  by_cases hp : ∃ g, c.Preserving expectedGeneration g
  · obtain ⟨g, hp⟩ := hp
    rw [replacement_of_preserving hp, latestSeq_mergeMutationsAfterLocked]
    refine (foldl_max_mem (c.preservedSeqs g) fresh.stats.latestSeq).imp_right fun h => ?_
    obtain ⟨k, x, hx, heq⟩ := mem_preservedSeqs.mp h
    exact ⟨g, hp, k, x, hx, heq.symm⟩
  · rw [replacement_of_not_preserving fun g hg => hp ⟨g, hg⟩]
    exact Or.inl rfl

@[simp] theorem versions_replace (c : PublicStateCache) (now : Int) (fresh : PublicLiveState)
    (excluded : Counter) (expectedGeneration : Option Nat) (k : Kind) :
    (c.replace now fresh excluded expectedGeneration).state.versions k =
      ((c.replacement fresh expectedGeneration).versions k).take k.limit := by
  cases k <;> exact List.map_take ..

@[simp] theorem journal_replace (c : PublicStateCache) (now : Int) (fresh : PublicLiveState)
    (excluded : Counter) (expectedGeneration : Option Nat) (k : Kind) (key : String) :
    (c.replace now fresh excluded expectedGeneration).journal k key = 0 := by
  cases k <;> rfl

@[simp] theorem latestSeq_replace (c : PublicStateCache) (now : Int) (fresh : PublicLiveState)
    (excluded : Counter) (expectedGeneration : Option Nat) :
    (c.replace now fresh excluded expectedGeneration).state.stats.latestSeq =
      (c.replacement fresh expectedGeneration).stats.latestSeq := rfl

end PublicStateCache

end CartoLive.Live
