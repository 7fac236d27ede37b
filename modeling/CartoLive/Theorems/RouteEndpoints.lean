import CartoLive.Theorems.RouteSummaries

/-!
# Endpoints of route summaries

A projection takes the later of the heard times, but it puts its own endpoints into
the row. So a row has the endpoints of the edge that was projected last, in every
schedule of projections and backfills (`RowsOfLast`), and those of the edge that was
heard last exactly where the two put the same columns (`endpoints_iff`). The
backfill of packet paths goes from the newest edge to the oldest, and leaves the
endpoints of the oldest one (`endpoints_depend`).
-/

namespace CartoLive.Theorems.RouteEndpoints

open CartoLive.Lib CartoLive.Go CartoLive.Live CartoLive.Store CartoLive.Theorems.RouteSummaries

/-! ## Columns -/

/-- The columns of a summary that are not merged. -/
structure EndpointColumns where
  source : PublicRouteEndpoint
  target : PublicRouteEndpoint
  distanceKM : F64
  deriving DecidableEq

def endpointColumns (row : PublicRoute) : EndpointColumns :=
  { source := row.source, target := row.target, distanceKM := row.distanceKM }

/-- The columns that a segment puts into the row of its route. -/
def segmentColumns (segment : EdgeSegment) : EndpointColumns :=
  let segment := publicSegment [] segment
  { source := { Database.sanitizeEndpoint segment.source with
      pathHash3 := publicDisplayText segment.source.pathHash3 500 }
    target := { Database.sanitizeEndpoint segment.target with
      pathHash3 := publicDisplayText segment.target.pathHash3 500 }
    distanceKM := segment.distanceKM }

/-- The columns of a route. -/
def columnsOf (r : String) (rows : List PublicRoute) : Option EndpointColumns :=
  (rows.find? fun row => row.id = r).map endpointColumns

theorem columnsOf_mem {rows : List PublicRoute} (h : (rows.map PublicRoute.id).Nodup)
    {row : PublicRoute} (hrow : row ∈ rows) : columnsOf row.id rows = some (endpointColumns row) := by
  have hsome : (rows.find? fun x => x.id = row.id).isSome :=
    List.find?_isSome.mpr ⟨row, hrow, decide_eq_true rfl⟩
  obtain ⟨x, hx⟩ := Option.isSome_iff_exists.mp hsome
  have hid : x.id = row.id := by simpa using List.find?_some hx
  have heq : x = row := List.inj_on_of_nodup_map h (List.mem_of_find?_eq_some hx) hrow hid
  rw [columnsOf, hx, heq]
  rfl

theorem columnsOf_upsertSegment (edge : EdgeEvent) (rows : List PublicRoute) (segment : EdgeSegment)
    (r : String) :
    columnsOf r (Database.upsertSegment edge rows (publicSegment [] segment)) =
      if segmentRoute segment = r then some (segmentColumns segment) else columnsOf r rows := by
  have hid := id_summaryRow edge [] segment
  unfold columnsOf
  rw [upsertSegment_eq_bump]
  refine (congrArg (Option.map endpointColumns) (Counting.find_bump (t := routeCounting)
    (k := segmentRoute segment) (fun _ _ => ?_) ?_ rows r)).trans ?_
  · exact hid
  · exact hid
  · split
    · rw [Option.map_some]
      cases rows.find? fun x => routeCounting.key x = segmentRoute segment <;> rfl
    · rfl

section Env

variable [LiveEnv]

/-- The columns that an edge puts into the row of a route: those of its last segment
on it. -/
def edgeColumns (r : String) (edge : EdgeEvent) : Option EndpointColumns :=
  (((mappableSegments edge).filter fun segment => segmentRoute segment = r).getLast?).map
    segmentColumns

theorem edgeColumns_congr {edge edge' : EdgeEvent} (h : edge.segments = edge'.segments)
    (r : String) : edgeColumns r edge = edgeColumns r edge' := by
  rw [edgeColumns, edgeColumns, mappableSegments, mappableSegments, h]

theorem edgeColumns_isSome {r : String} {edge : EdgeEvent} :
    (edgeColumns r edge).isSome ↔ 0 < edgeCount r edge := by
  rw [edgeColumns, Option.isSome_map, List.getLast?_isSome, edgeCount, Int.natCast_pos,
    List.countP_pos_iff]
  simp [List.filter_eq_nil_iff]

omit [LiveEnv] in
theorem columnsOf_foldl (edge : EdgeEvent) (r : String) (segments : List EdgeSegment)
    (rows : List PublicRoute) :
    columnsOf r ((segments.map (publicSegment [])).foldl (Database.upsertSegment edge) rows) =
      ((((segments.filter fun segment => segmentRoute segment = r).getLast?).map
        segmentColumns).or (columnsOf r rows)) := by
  induction segments using List.reverseRecOn with
  | nil => rfl
  | append_singleton segments segment ih =>
    rw [List.map_append, List.foldl_append, List.map_singleton, List.foldl_cons, List.foldl_nil,
      columnsOf_upsertSegment, List.filter_append]
    by_cases hr : segmentRoute segment = r
    · simp [hr]
    · simp [hr, ih]

/-- A projection puts the columns of its edge into the rows of the routes that the
edge is on. -/
theorem columnsOf_upsert (db : Database) (edge : EdgeEvent)
    (hskip : ¬ (edge.id ≤ 0 ∨ edge.id ∈ db.projected)) (r : String) :
    columnsOf r (db.upsertPublicRouteSummariesTx edge).summaries =
      (edgeColumns r edge).or (columnsOf r db.summaries) := by
  rw [Database.upsertPublicRouteSummariesTx, if_neg hskip]
  dsimp only
  split
  · rename_i hnone
    rw [edgeColumns, (publicRoutePulseFromEdge_eq_none_iff edge _).mp hnone]
    rfl
  · rename_i pulse hpulse
    rw [segments_of_pulse hpulse]
    exact columnsOf_foldl edge r _ db.summaries

/-! ## The edge that was projected last -/

/-- The stored edges in the order in which they were projected. -/
def projectedInOrder (db : Database) : List EdgeEvent :=
  db.projected.filterMap fun id => db.edges.find? fun edge => edge.id = id

/-- The edge on a route that was projected last. -/
def lastProjected (db : Database) (r : String) : Option EdgeEvent :=
  ((projectedInOrder db).filter fun edge => 0 < edgeCount r edge).getLast?

/-- Every row has the endpoints of the edge that was projected last. -/
def RowsOfLast (db : Database) : Prop :=
  ∀ r, columnsOf r db.summaries = (lastProjected db r).bind (edgeColumns r)

theorem lastProjected_upsert {db : Database} (hids : (db.edges.map EdgeEvent.id).Nodup)
    {edge : EdgeEvent} (hstored : StoredEdge db edge)
    (hskip : ¬ (edge.id ≤ 0 ∨ edge.id ∈ db.projected)) (r : String) :
    (lastProjected (db.upsertPublicRouteSummariesTx edge) r).bind (edgeColumns r) =
      (edgeColumns r edge).or ((lastProjected db r).bind (edgeColumns r)) := by
  obtain ⟨row, hrow, hid, hsegments, -⟩ := hstored
  have hfind : db.edges.find? (fun e => e.id = edge.id) = some row := by
    have hsome : (db.edges.find? fun e => e.id = edge.id).isSome :=
      List.find?_isSome.mpr ⟨row, hrow, decide_eq_true hid⟩
    obtain ⟨x, hx⟩ := Option.isSome_iff_exists.mp hsome
    have hxid : x.id = edge.id := by simpa using List.find?_some hx
    rw [hx, List.inj_on_of_nodup_map hids (List.mem_of_find?_eq_some hx) hrow (hxid.trans hid.symm)]
  have horder : projectedInOrder (db.upsertPublicRouteSummariesTx edge) =
      projectedInOrder db ++ [row] := by
    unfold projectedInOrder
    rw [projected_upsert, if_neg hskip, edges_upsert, List.filterMap_append]
    simp [hfind]
  unfold lastProjected
  rw [horder, List.filter_append, ← edgeColumns_congr hsegments]
  by_cases hcount : 0 < edgeCount r row
  · obtain ⟨columns, hcolumns⟩ := Option.isSome_iff_exists.mp (edgeColumns_isSome.mpr hcount)
    simp [hcount, hcolumns]
  · have hnone : edgeColumns r row = none := by
      rw [← Option.not_isSome_iff_eq_none, edgeColumns_isSome]
      exact hcount
    simp [hcount, hnone]

theorem RowsOfLast.upsert {db : Database} (h : RowsOfLast db)
    (hids : (db.edges.map EdgeEvent.id).Nodup) {edge : EdgeEvent} (hstored : StoredEdge db edge) :
    RowsOfLast (db.upsertPublicRouteSummariesTx edge) := by
  by_cases hskip : edge.id ≤ 0 ∨ edge.id ∈ db.projected
  · rw [Database.upsertPublicRouteSummariesTx, if_pos hskip]
    exact h
  · intro r
    rw [columnsOf_upsert db edge hskip, lastProjected_upsert hids hstored hskip, h r]

theorem RowsOfLast.foldl {db : Database} (h : RowsOfLast db)
    (hids : (db.edges.map EdgeEvent.id).Nodup) (edges : List EdgeEvent)
    (hstored : ∀ edge ∈ edges, StoredEdge db edge) :
    RowsOfLast (edges.foldl Database.upsertPublicRouteSummariesTx db) := by
  induction edges generalizing db with
  | nil => exact h
  | cons edge edges ih =>
    rw [List.foldl_cons]
    refine ih (h.upsert hids (hstored edge List.mem_cons_self)) ?_ fun e he =>
      storedEdge_upsert.mpr (hstored e (List.mem_cons_of_mem _ he))
    rw [edges_upsert]
    exact hids

/-- In every schedule the rows have the endpoints of the edges projected last. -/
theorem rowsOfLast {s : ProjectionState} (h : projecting.Reachable s) :
    RowsOfLast s.db.toDatabase := by
  refine TSys.ReachOn.induct_with (P := fun s => RowsOfLast s.db.toDatabase)
    (fun s hs => scheduleInv hs) ?_ ?_ h
  · rintro s ⟨hdb, -⟩ r
    unfold lastProjected projectedInOrder
    rw [hdb.summaries, hdb.projected]
    rfl
  · intro s a s' hinv ih _ hstep
    replace hstep : projectionStep s a = some s' := hstep
    cases a with
    | project event =>
      obtain ⟨-, hstep⟩ := Option.ite_none_right_eq_some.mp hstep
      cases hstep
      exact ih
    | selectPaths now fromMs toMs limit => cases hstep; exact ih
    | selectSummaries now fromMs toMs limit => cases hstep; exact ih
    | commit i =>
      obtain ⟨call, hcall, rfl⟩ := Option.map_eq_some_iff.mp hstep
      show RowsOfLast (call.commit s.db).toDatabase
      rw [toDatabase_commit]
      exact ih.foldl hinv.summarized.consistent.ids call.edges
        (hinv.stored call (List.mem_of_getElem? hcall))
    | rollback i =>
      obtain ⟨call, hcall, rfl⟩ := Option.map_eq_some_iff.mp hstep
      exact ih

/-! ## The result -/

/-- The rows have the endpoints of the projected edge whose time is the last-heard
time. -/
def RowsOfLatest (db : Database) : Prop :=
  ∀ row ∈ db.summaries, ∀ edge ∈ projectedEdges db, 0 < edgeCount row.id edge →
    edge.heardAt = row.lastHeard → edgeColumns row.id edge = some (endpointColumns row)

/-- The rows of two databases have the same endpoints. -/
def SameEndpoints (db db' : Database) : Prop :=
  ∀ r, columnsOf r db.summaries = columnsOf r db'.summaries

/-- No edge on the route was heard later. -/
def HeardLast (db : Database) (r : String) (edge : EdgeEvent) : Prop :=
  edge ∈ projectedEdges db ∧ 0 < edgeCount r edge ∧
    ∀ other ∈ projectedEdges db, 0 < edgeCount r other → other.heardAt ≤ edge.heardAt

/-- On each route the edge that was projected last was also heard last, or it has the
same endpoints as the one that was. -/
def LastIsLatest (db : Database) : Prop :=
  ∀ r last latest, lastProjected db r = some last → HeardLast db r latest →
    edgeColumns r last = edgeColumns r latest

theorem lastProjected_of_row {s : ProjectionState} (h : projecting.Reachable s) {row : PublicRoute}
    (hrow : row ∈ s.db.summaries) : ∃ last, lastProjected s.db.toDatabase row.id = some last ∧
      edgeColumns row.id last = some (endpointColumns row) := by
  have hcolumns := (rowsOfLast h row.id).symm.trans
    (columnsOf_mem (summaries_exact h).routes hrow)
  exact Option.bind_eq_some_iff.mp hcolumns

/-- The latest edge of a row's route. -/
theorem heardLast_iff {s : ProjectionState} (h : projecting.Reachable s) {row : PublicRoute}
    (hrow : row ∈ s.db.summaries) (edge : EdgeEvent) :
    HeardLast s.db.toDatabase row.id edge ↔ edge ∈ projectedEdges s.db.toDatabase ∧
      0 < edgeCount row.id edge ∧ edge.heardAt = row.lastHeard := by
  have hgreatest := (summaries_exact h).lastHeard row hrow
  constructor
  · rintro ⟨hedge, hcount, hlatest⟩
    refine ⟨hedge, hcount, le_antisymm (hgreatest.2 ⟨edge, hedge, hcount, rfl⟩) ?_⟩
    obtain ⟨other, hother, hcount', htime⟩ := hgreatest.1
    exact htime ▸ hlatest other hother hcount'
  · rintro ⟨hedge, hcount, htime⟩
    refine ⟨hedge, hcount, fun other hother hcount' => ?_⟩
    rw [htime]
    exact hgreatest.2 ⟨other, hother, hcount', rfl⟩

theorem rowsOfLatest_iff {s : ProjectionState} (h : projecting.Reachable s) :
    RowsOfLatest s.db.toDatabase ↔ LastIsLatest s.db.toDatabase := by
  constructor
  · intro hrows r last latest hlast hlatest
    obtain ⟨hedge, hcount, hmax⟩ := hlatest
    obtain ⟨row, hrow, rfl⟩ := List.mem_map.mp
      ((summaries_exact h).complete latest hedge r hcount)
    obtain ⟨last', hlast', hcolumns⟩ := lastProjected_of_row h hrow
    obtain rfl : last' = last := Option.some.inj (hlast'.symm.trans hlast)
    rw [hcolumns, hrows row hrow latest hedge hcount
      ((heardLast_iff h hrow latest).mp ⟨hedge, hcount, hmax⟩).2.2]
  · intro hlast row hrow edge hedge hcount htime
    obtain ⟨last, hprojected, hcolumns⟩ := lastProjected_of_row h hrow
    rw [← hcolumns]
    exact (hlast row.id last edge hprojected
      ((heardLast_iff h hrow edge).mpr ⟨hedge, hcount, htime⟩)).symm

/-- The latest edges are the same, so the rows are. -/
theorem sameEndpoints {s s' : ProjectionState} (h : projecting.Reachable s)
    (h' : projecting.Reachable s')
    (hedges : projectedEdges s.db.toDatabase = projectedEdges s'.db.toDatabase)
    (hrows : RowsOfLatest s.db.toDatabase) (hrows' : RowsOfLatest s'.db.toDatabase) :
    SameEndpoints s.db.toDatabase s'.db.toDatabase := by
  intro r
  -- a row of one database has a row of the other with the same latest edge
  have hone : ∀ {t t' : ProjectionState}, projecting.Reachable t → projecting.Reachable t' →
      projectedEdges t.db.toDatabase = projectedEdges t'.db.toDatabase →
      RowsOfLatest t.db.toDatabase → RowsOfLatest t'.db.toDatabase → ∀ row ∈ t.db.summaries,
      columnsOf row.id t'.db.summaries = some (endpointColumns row) := by
    intro t t' ht ht' heq hrt hrt' row hrow
    obtain ⟨edge, hedge, hcount, htime⟩ := ((summaries_exact ht).lastHeard row hrow).1
    obtain ⟨row', hrow', hid⟩ := List.mem_map.mp
      ((summaries_exact ht').complete edge (heq ▸ hedge) row.id hcount)
    have hlatest := (heardLast_iff ht hrow edge).mpr ⟨hedge, hcount, htime⟩
    have hlatest' : HeardLast t'.db.toDatabase row'.id edge := by
      unfold HeardLast at hlatest ⊢
      rw [hid, ← heq]
      exact hlatest
    have hcolumns' := hrt' row' hrow' edge (heq ▸ hedge) (hid ▸ hcount)
      ((heardLast_iff ht' hrow' edge).mp hlatest').2.2
    rw [← hid, columnsOf_mem (summaries_exact ht').routes hrow', ← hcolumns', hid]
    exact hrt row hrow edge hedge hcount htime
  cases hc : columnsOf r s.db.summaries with
  | some columns =>
    obtain ⟨row, hfind, hcolumns⟩ := Option.map_eq_some_iff.mp hc
    have hid : row.id = r := by simpa using List.find?_some hfind
    have hrow := hone h h' hedges hrows hrows' row (List.mem_of_find?_eq_some hfind)
    rw [hid, hcolumns] at hrow
    exact hrow.symm
  | none =>
    cases hc' : columnsOf r s'.db.summaries with
    | none => rfl
    | some columns =>
      obtain ⟨row, hfind, hcolumns⟩ := Option.map_eq_some_iff.mp hc'
      have hid : row.id = r := by simpa using List.find?_some hfind
      have hrow := hone h' h hedges.symm hrows' hrows row (List.mem_of_find?_eq_some hfind)
      rw [hid, hc] at hrow
      cases hrow

/-- Two schedules that project the same edges give the same endpoints, those of the
latest edges, exactly where in both the edges projected last are the latest, or have
their endpoints. -/
theorem endpoints_iff {s s' : ProjectionState} (h : projecting.Reachable s)
    (h' : projecting.Reachable s')
    (hedges : projectedEdges s.db.toDatabase = projectedEdges s'.db.toDatabase) :
    (SameEndpoints s.db.toDatabase s'.db.toDatabase ∧ RowsOfLatest s.db.toDatabase ∧
        RowsOfLatest s'.db.toDatabase) ↔
      LastIsLatest s.db.toDatabase ∧ LastIsLatest s'.db.toDatabase := by
  rw [rowsOfLatest_iff h, rowsOfLatest_iff h']
  refine ⟨fun hall => hall.2, fun hlast => ⟨?_, hlast⟩⟩
  exact sameEndpoints h h' hedges ((rowsOfLatest_iff h).mpr hlast.1)
    ((rowsOfLatest_iff h').mpr hlast.2)

end Env

section Runs

open CartoLive.App

attribute [local instance] defaultEnv

/-- An edge, and a later one back. -/
def thereAndBack : PathDatabase :=
  { emptyDatabase with
    packetPaths := []
    edgeSequence := 2
    edges :=
      [{ sampleEdge with id := 1 },
        { sampleEdge with
          id := 2, heardAt := 2000
          segments := sampleEdge.segments.map fun segment =>
            { segment with source := segment.target, target := segment.source } }] }

/-- The edges are projected as they come. -/
def projectedLive : List ProjectionAct :=
  [.project { sampleEdge with id := 1 }, .commit 0, .selectSummaries 10000 0 0 0, .commit 0]

/-- The backfill of packet paths projects the later edge first. -/
def projectedBack : List ProjectionAct := [.selectPaths 10000 0 0 0, .commit 0]

/-- The row of the route starts at a node, and both edges are projected. -/
def startsAt (node : String) (s : ProjectionState) : Bool :=
  s.db.summaries.map (fun row => (row.id, row.source.nodeID)) = [("r-4c851f00", node)] ∧
    projectedEdges s.db.toDatabase = thereAndBack.edges

theorem exists_startsAt (acts : List ProjectionAct) (node : String)
    (h : (projecting.run ⟨thereAndBack, []⟩ acts).any (startsAt node) = true) :
    ∃ s, projecting.Reachable s ∧ startsAt node s = true :=
  TSys.exists_reachable_of_run acts (startsAt node)
    ⟨⟨by decide, by decide, by decide, rfl, rfl, rfl⟩, rfl⟩ h

theorem endpoints_iff_back : ∃ s s' : ProjectionState, startsAt "B" s = true ∧
    startsAt "A" s' = true ∧
    ((SameEndpoints s.db.toDatabase s'.db.toDatabase ∧ RowsOfLatest s.db.toDatabase ∧
      RowsOfLatest s'.db.toDatabase) ↔
        LastIsLatest s.db.toDatabase ∧ LastIsLatest s'.db.toDatabase) := by
  obtain ⟨s, hs, hstart⟩ := exists_startsAt projectedLive "B" (by decide +kernel)
  obtain ⟨s', hs', hstart'⟩ := exists_startsAt projectedBack "A" (by decide +kernel)
  refine ⟨s, s', hstart, hstart', endpoints_iff hs hs' ?_⟩
  exact (of_decide_eq_true hstart).2.trans (of_decide_eq_true hstart').2.symm

theorem columnsOf_startsAt {node : String} {s : ProjectionState} (h : startsAt node s = true) :
    ((columnsOf "r-4c851f00" s.db.summaries).map fun columns => columns.source.nodeID) =
      some node := by
  have hrows := (of_decide_eq_true h).1
  cases hsummaries : s.db.summaries with
  | nil => rw [hsummaries] at hrows; cases hrows
  | cons row rows =>
    rw [hsummaries, List.map_cons] at hrows
    obtain ⟨hid, hnode⟩ := Prod.mk.inj (List.cons.inj hrows).1
    rw [columnsOf, List.find?_cons_of_pos (by simpa using hid), ← hnode]
    rfl

/-- The two orders give different endpoints. -/
theorem endpoints_depend : ¬ ∀ s s' : ProjectionState, projecting.Reachable s →
    projecting.Reachable s' →
    projectedEdges s.db.toDatabase = projectedEdges s'.db.toDatabase →
    ((projectedEdges s.db.toDatabase).map EdgeEvent.heardAt).Nodup →
    SameEndpoints s.db.toDatabase s'.db.toDatabase ∧ RowsOfLatest s.db.toDatabase ∧
      RowsOfLatest s'.db.toDatabase := by
  intro h
  obtain ⟨s, hs, hstart⟩ := exists_startsAt projectedLive "B" (by decide +kernel)
  obtain ⟨s', hs', hstart'⟩ := exists_startsAt projectedBack "A" (by decide +kernel)
  have hedges := (of_decide_eq_true hstart).2
  have hsame := (h s s' hs hs' (hedges.trans (of_decide_eq_true hstart').2.symm)
    (by rw [hedges]; decide)).1 "r-4c851f00"
  have hnode := columnsOf_startsAt hstart
  rw [hsame, columnsOf_startsAt hstart'] at hnode
  exact absurd hnode (by decide)

end Runs

end CartoLive.Theorems.RouteEndpoints
