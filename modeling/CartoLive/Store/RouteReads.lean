import CartoLive.Store.RouteCounts

/-!
# What a refresh reads of the route counts

The routes of a public state are the stored summaries, and for routes without a
summary those aggregated from the recent edges. `tally_read` says which edges
such a state has counted.
-/

namespace CartoLive.Store

open CartoLive.Lib CartoLive.Go CartoLive.Live

/-! ## Routes aggregated from edges -/

def aggregateCounting : Counting RouteAggregate String :=
  { key := fun item => item.route.id, count := fun item => item.route.packetCount }

theorem addRouteSegment_eq_bump (edge : EdgeEvent) (byID : List RouteAggregate)
    (segment : PublicRouteSegment) :
    addRouteSegment edge byID segment =
      aggregateCounting.bump segment.routeID (fun item => item.count edge)
        ((RouteAggregate.start segment).count edge) byID := rfl

theorem addRouteSegment_spec (edge : EdgeEvent) (segment : PublicRouteSegment)
    {byID : List RouteAggregate} (h : (byID.map aggregateCounting.key).Nodup) :
    ((addRouteSegment edge byID segment).map aggregateCounting.key).Nodup ∧
      ∀ r, aggregateCounting.tally r (addRouteSegment edge byID segment) =
        aggregateCounting.tally r byID + segmentWeight r segment := by
  rw [addRouteSegment_eq_bump]
  constructor
  · refine Counting.nodup_bump (fun _ hkey => ?_) ?_ h
    · exact hkey
    · rfl
  · intro r
    refine Counting.tally_bump (fun _ hkey => ?_) ?_ (fun _ _ => ?_) ?_ h r
    · exact hkey
    all_goals rfl

/-- One route at most is added for each identifier, and only a new one. -/
theorem tally_foldl_fallback {recent : List PublicRoute} (h : (recent.map PublicRoute.id).Nodup)
    (out : List PublicRoute) (r : String) :
    routeCounting.tally r (recent.foldl (fun out route =>
        if out.any fun x => x.id = route.id then out else out ++ [route]) out) =
      if r ∈ out.map PublicRoute.id then routeCounting.tally r out
      else routeCounting.tally r recent := by
  induction recent generalizing out with
  | nil =>
    split
    · rfl
    · rename_i hr
      exact Counting.tally_eq_zero (t := routeCounting) hr
  | cons route recent ih =>
    rw [List.map_cons, List.nodup_cons] at h
    have hkey : routeCounting.key route = route.id := rfl
    rw [List.foldl_cons]
    by_cases hin : route.id ∈ out.map PublicRoute.id
    · have hany : (out.any fun x => x.id = route.id) = true :=
        Counting.mem_keys_iff_any (t := routeCounting) |>.mpr hin
      rw [if_pos hany, ih h.2]
      by_cases hr : r ∈ out.map PublicRoute.id
      · rw [if_pos hr, if_pos hr]
      · have hne : route.id ≠ r := fun heq => hr (heq ▸ hin)
        rw [if_neg hr, if_neg hr, Counting.tally_cons, hkey, if_neg hne, Int.zero_add]
    · have hany : ¬(out.any fun x => x.id = route.id) = true := fun hany =>
        hin (Counting.mem_keys_iff_any (t := routeCounting) |>.mp hany)
      rw [if_neg hany, ih h.2, Counting.tally_append, Counting.tally_cons, Counting.tally_cons, hkey,
        List.map_append, List.map_singleton]
      by_cases hr : r ∈ out.map PublicRoute.id
      · have hne : route.id ≠ r := fun heq => hin (heq ▸ hr)
        rw [if_pos hr, if_pos (List.mem_append_left _ hr), if_neg hne]
        simp
      · rw [if_neg hr]
        have hout : routeCounting.tally r out = 0 := Counting.tally_eq_zero (t := routeCounting) hr
        by_cases heq : route.id = r
        · have hrest : routeCounting.tally r recent = 0 :=
            Counting.tally_eq_zero (t := routeCounting) (heq ▸ h.1)
          rw [if_pos (by simp [heq]), if_pos heq, hout, hrest]
          simp
        · have hnot : r ∉ out.map PublicRoute.id ++ [route.id] := by
            intro hmem
            rcases List.mem_append.mp hmem with hmem | hmem
            · exact hr hmem
            · exact heq (List.mem_singleton.mp hmem).symm
          rw [if_neg hnot, if_neg heq]
          omega

theorem tally_publicRoutesWithRecentFallback (summaries : List PublicRoute)
    {recent : List PublicRoute} (h : (recent.map PublicRoute.id).Nodup) (r : String) :
    routeCounting.tally r (publicRoutesWithRecentFallback summaries recent) =
      if r ∈ summaries.map PublicRoute.id then routeCounting.tally r summaries
      else routeCounting.tally r recent := by
  unfold publicRoutesWithRecentFallback
  by_cases hnil : summaries = []
  · simp [hnil]
  · rw [if_neg hnil]
    exact tally_foldl_fallback h summaries r

theorem id_readSummary (maxCount : Int) (route : PublicRoute) :
    (Database.readSummary maxCount route).id = route.id := by
  rw [Database.readSummary]

theorem packetCount_readSummary (maxCount : Int) (route : PublicRoute) :
    (Database.readSummary maxCount route).packetCount = route.packetCount := by
  rw [Database.readSummary]

/-- The stored summaries that a read returns, when they fit its limit. -/
theorem publicRouteSummaries_spec (db : Database) {limit : Int}
    (h : db.summaries.length ≤ Database.summaryLimit limit) (r : String) :
    routeCounting.tally r (db.publicRouteSummaries limit) = routeCounting.tally r db.summaries ∧
      (r ∈ (db.publicRouteSummaries limit).map PublicRoute.id ↔
        r ∈ db.summaries.map PublicRoute.id) := by
  have hperm := List.perm_insertionSort Database.summaryBefore db.summaries
  have htake : (db.summaries.insertionSort Database.summaryBefore).take
      (Database.summaryLimit limit) = db.summaries.insertionSort Database.summaryBefore :=
    List.take_of_length_le (by rwa [hperm.length_eq])
  unfold Database.publicRouteSummaries
  rw [htake]
  dsimp only
  generalize List.foldl _ (1 : Int) _ = maxCount
  constructor
  · rw [← Counting.tally_perm hperm]
    exact Counting.tally_map (id_readSummary maxCount) (packetCount_readSummary maxCount) r _
  · have hid : PublicRoute.id ∘ Database.readSummary maxCount = PublicRoute.id :=
      funext (id_readSummary maxCount)
    rw [List.map_map, hid]
    exact (hperm.map PublicRoute.id).mem_iff

section Env

variable [LiveEnv]

theorem aggregateRoutes_spec (edges : List EdgeEvent) (index : PathHash3Index) :
    ((aggregateRoutes edges index).map aggregateCounting.key).Nodup ∧
      ∀ r, aggregateCounting.tally r (aggregateRoutes edges index) =
        (edges.map (edgeCount r)).sum := by
  have hedge : ∀ (byID : List RouteAggregate) (edge : EdgeEvent),
      (byID.map aggregateCounting.key).Nodup →
      ((((mappableSegments edge).map (publicSegment index)).foldl (addRouteSegment edge)
        byID).map aggregateCounting.key).Nodup ∧
      ∀ r, aggregateCounting.tally r (((mappableSegments edge).map (publicSegment index)).foldl
        (addRouteSegment edge) byID) = aggregateCounting.tally r byID + edgeCount r edge := by
    intro byID edge h
    have hfold := Counting.tally_foldl (t := aggregateCounting)
      (fun rows segment hrows => (addRouteSegment_spec edge segment hrows).1)
      (fun rows segment r hrows => (addRouteSegment_spec edge segment hrows).2 r)
      ((mappableSegments edge).map (publicSegment index)) h
    refine ⟨hfold.1, fun r => (hfold.2 r).trans ?_⟩
    rw [sum_segmentWeight]
  have hstart : (([] : List RouteAggregate).map aggregateCounting.key).Nodup := List.nodup_nil
  have hfold := Counting.tally_foldl (t := aggregateCounting)
    (fun rows edge hrows => (hedge rows edge hrows).1)
    (fun rows edge r hrows => (hedge rows edge hrows).2 r) edges hstart
  exact ⟨hfold.1, fun r => (hfold.2 r).trans (by simp)⟩

theorem buildPublicRoutes_spec (edges : List EdgeEvent) (index : PathHash3Index) :
    ((buildPublicRoutes edges index).map PublicRoute.id).Nodup ∧
      ∀ r, routeCounting.tally r (buildPublicRoutes edges index) =
        (edges.map (edgeCount r)).sum := by
  obtain ⟨hnodup, htally⟩ := aggregateRoutes_spec edges index
  unfold buildPublicRoutes
  constructor
  · rw [((List.perm_insertionSort _ _).map PublicRoute.id).nodup_iff, List.map_map]
    exact hnodup
  · intro r
    rw [Counting.tally_perm (List.perm_insertionSort _ _), ← htally r]
    refine Counting.tally_map (fun _ => ?_) (fun _ => ?_) r _
    · rfl
    · rfl

/-! ## Which edges a read has counted -/

omit [LiveEnv] in
/-- The identifiers of the recent edges. -/
def Database.recentIDs (db : Database) (limit now : Int) : List Int :=
  (db.recentEdgeEvents limit now).map EdgeEvent.id

theorem sum_recentEdgeEvents {db : Database} (h : (db.edges.map EdgeEvent.id).Nodup)
    (limit now : Int) (r : String) :
    ((db.recentEdgeEvents limit now).map (edgeCount r)).sum =
      ((db.edges.filter fun edge => edge.id ∈ db.recentIDs limit now).map (edgeCount r)).sum := by
  obtain ⟨n, hn⟩ : ∃ n, db.recentEdgeEvents limit now =
      (((db.edges.filter fun edge => edge.heardAt ≤ now + Database.maxFutureEdgeSkew).insertionSort
        Database.heardEdgeBefore).take n).map db.joined := ⟨_, rfl⟩
  have hids : db.recentIDs limit now = ((((db.edges.filter fun edge =>
      edge.heardAt ≤ now + Database.maxFutureEdgeSkew).insertionSort
        Database.heardEdgeBefore).take n).map EdgeEvent.id) := by
    rw [Database.recentIDs, hn, List.map_map]
    rfl
  rw [hids, hn, List.map_map]
  have hcount : edgeCount r ∘ db.joined = edgeCount r :=
    funext fun edge => edgeCount_congr rfl r
  rw [hcount]
  have hsub : ∀ edge ∈ ((db.edges.filter fun edge =>
      edge.heardAt ≤ now + Database.maxFutureEdgeSkew).insertionSort
        Database.heardEdgeBefore).take n, edge ∈ db.edges := fun edge hedge =>
    List.mem_of_mem_filter ((List.mem_insertionSort _).mp (List.mem_of_mem_take hedge))
  refine ((List.perm_ext_iff_of_nodup ?_ ?_).mpr fun edge => ?_).map _ |>.sum_eq
  · refine List.Nodup.sublist (List.take_sublist ..) ?_
    rw [(List.perm_insertionSort _ _).nodup_iff]
    exact (List.Nodup.of_map _ h).filter _
  · exact (List.Nodup.of_map _ h).filter _
  · rw [List.mem_filter, decide_eq_true_eq]
    constructor
    · exact fun hedge => ⟨hsub edge hedge, List.mem_map_of_mem hedge⟩
    · rintro ⟨hedge, hid⟩
      obtain ⟨other, hother, heq⟩ := List.mem_map.mp hid
      rwa [← List.inj_on_of_nodup_map h (hsub other hother) hedge heq]

/-- The edges that a read has counted on a route: the projected ones when the
route had a summary, else the recent ones. -/
def readEdges (reads : Database.Query → Database.Read) (edgeLimit : Int) (r : String) : List Int :=
  if r ∈ (reads .routes).db.summaries.map PublicRoute.id then (reads .routes).db.projected
  else (reads .edges).db.recentIDs edgeLimit (reads .edges).now

/-- The database whose edges they are. -/
def readDatabase (reads : Database.Query → Database.Read) (r : String) : Database :=
  if r ∈ (reads .routes).db.summaries.map PublicRoute.id then (reads .routes).db
  else (reads .edges).db

/-- **What a read has counted.** A public state built from reads of databases in
step has on each route the edges that `readEdges` names. -/
theorem tally_read {reads : Database.Query → Database.Read} (hconsistent : ∀ q, (reads q).db.Consistent)
    {edgeLimit : Int}
    (hfits : (reads .routes).db.summaries.length ≤ Database.summaryLimit (max edgeLimit 2500))
    (packetLimit serverTime : Int) (stats : PublicStats) (now : Int) (r : String) :
    routeCounting.tally r (buildPublicLiveState
        (Database.liveState reads packetLimit edgeLimit serverTime) stats now).routes =
      (((readDatabase reads r).edges.filter fun edge =>
        edge.id ∈ readEdges reads edgeLimit r).map (edgeCount r)).sum := by
  obtain ⟨htally, hmem⟩ := publicRouteSummaries_spec (reads .routes).db hfits r
  obtain ⟨hnodup, hrecent⟩ := buildPublicRoutes_spec
    ((reads .edges).db.recentEdgeEvents edgeLimit (reads .edges).now)
    (buildPublicPathHash3Index (reads .nodes).db.positionedNodes
      (reads .observers).db.observersQuery)
  have hroutes := tally_publicRoutesWithRecentFallback
    ((reads .routes).db.publicRouteSummaries (max edgeLimit 2500)) hnodup r
  refine hroutes.trans ?_
  unfold readDatabase readEdges
  by_cases hr : r ∈ (reads .routes).db.summaries.map PublicRoute.id
  · rw [if_pos (hmem.mpr hr), if_pos hr, if_pos hr, htally, (hconsistent .routes).counted r]
  · rw [if_neg (mt hmem.mp hr), if_neg hr, if_neg hr, hrecent r,
      sum_recentEdgeEvents (hconsistent .edges).ids]

end Env

end CartoLive.Store
