import CartoLive.App.Backend
import CartoLive.Store.Projection
import CartoLive.Store.RouteCounts
import Mathlib.Order.Bounds.Defs

/-!
# Route summaries

Under every schedule of projections and backfills, with any of them rolled back,
a route's summary says exactly what the projected edges say of it: its count is
the number of their segments on the route, its last-heard time the latest of
their times, and its payload types are theirs. A call over edges that are
already counted changes no summary.
-/

namespace CartoLive.Theorems.RouteSummaries

open CartoLive.Lib CartoLive.Go CartoLive.Live CartoLive.Store

/-! ## What a summary says -/

/-- What an edge tells the routes it is on. -/
structure Hearing where
  heardAt : Int
  payloadType : String

def hearing (edge : EdgeEvent) : Hearing :=
  { heardAt := edge.heardAt, payloadType := upperTrim edge.payloadTypeName }

/-- A row says what some hearings say of its route: `heard r h` when `h` is one
of route `r`. -/
structure Describes (heard : String → Hearing → Prop) (row : PublicRoute) : Prop where
  attained : ∃ h, heard row.id h ∧ h.heardAt = row.lastHeard
  latest : ∀ h, heard row.id h → h.heardAt ≤ row.lastHeard
  payloadTypes : ∀ name, name ∈ row.payloadTypeNames ↔
    name ≠ "" ∧ ∃ h, heard row.id h ∧ h.payloadType = name

/-- Rows that say what some hearings say, each of its own route. -/
structure Reflects (heard : String → Hearing → Prop) (rows : List PublicRoute) : Prop where
  keys : (rows.map PublicRoute.id).Nodup
  described : ∀ row ∈ rows, Describes heard row
  complete : ∀ r h, heard r h → r ∈ rows.map PublicRoute.id

variable {heard heard' : String → Hearing → Prop} {rows : List PublicRoute}

theorem Describes.congr (hiff : ∀ r h, heard r h ↔ heard' r h) {row : PublicRoute}
    (h : Describes heard row) : Describes heard' row where
  attained := by
    obtain ⟨hearing, hheard, htime⟩ := h.attained
    exact ⟨hearing, (hiff _ _).mp hheard, htime⟩
  latest hearing hheard := h.latest hearing ((hiff _ _).mpr hheard)
  payloadTypes name := by
    rw [h.payloadTypes name]
    simp only [hiff]

theorem Reflects.congr (hiff : ∀ r h, heard r h ↔ heard' r h) (h : Reflects heard rows) :
    Reflects heard' rows :=
  ⟨h.keys, fun row hrow => (h.described row hrow).congr hiff,
    fun r hearing hheard => h.complete r hearing ((hiff _ _).mpr hheard)⟩

/-- The payload types of a route after one more hearing. -/
theorem mem_payloadTypes {existing : List String} (h : ∀ name ∈ existing, upperTrim name = name)
    (payloadType name : String) :
    name ∈ Database.payloadTypes existing payloadType ↔
      name ≠ "" ∧ (name ∈ existing ∨ name = upperTrim payloadType) := by
  unfold Database.payloadTypes
  rw [mem_uniqueSorted, List.map_append, List.mem_append, List.map_singleton, List.mem_singleton]
  have hmap : existing.map upperTrim = existing := by
    conv_rhs => rw [← List.map_id existing]
    exact List.map_congr_left h
  rw [hmap]

/-- One hearing more on route `r`. -/
def Also (heard : String → Hearing → Prop) (r : String) (x : Hearing) : String → Hearing → Prop :=
  fun r' y => heard r' y ∨ r' = r ∧ y = x

variable {row old : PublicRoute} {x : Hearing} {r : String}

/-- A row of another route. -/
theorem Describes.other (h : Describes heard row) (hne : row.id ≠ r) :
    Describes (Also heard r x) row where
  attained := by
    obtain ⟨y, hheard, htime⟩ := h.attained
    exact ⟨y, .inl hheard, htime⟩
  latest y hheard := by
    rcases hheard with hold | ⟨heq, -⟩
    · exact h.latest y hold
    · exact absurd heq hne
  payloadTypes name := by
    rw [h.payloadTypes name]
    simp [Also, hne]

/-- The row of the route, changed. -/
theorem Describes.more (h : Describes heard old) (payloadType : String)
    (hnormal : ∀ y, heard old.id y → upperTrim y.payloadType = y.payloadType)
    (hid : row.id = old.id) (htime : row.lastHeard = max old.lastHeard x.heardAt)
    (hnames : row.payloadTypeNames = Database.payloadTypes old.payloadTypeNames payloadType)
    (hx : x.payloadType = upperTrim payloadType) : Describes (Also heard old.id x) row where
  attained := by
    rw [hid, htime]
    rcases le_total x.heardAt old.lastHeard with hle | hle
    · obtain ⟨y, hheard, hy⟩ := h.attained
      exact ⟨y, .inl hheard, hy.trans (max_eq_left hle).symm⟩
    · exact ⟨x, .inr ⟨rfl, rfl⟩, (max_eq_right hle).symm⟩
  latest y hheard := by
    rw [hid] at hheard
    rw [htime]
    rcases hheard with hold | ⟨-, rfl⟩
    · exact (h.latest y hold).trans (le_max_left _ _)
    · exact le_max_right _ _
  payloadTypes name := by
    have hexisting : ∀ name ∈ old.payloadTypeNames, upperTrim name = name := by
      intro name hname
      obtain ⟨-, y, hheard, rfl⟩ := (h.payloadTypes name).mp hname
      exact hnormal y hheard
    rw [hnames, mem_payloadTypes hexisting, h.payloadTypes name, hid, ← hx]
    constructor
    · rintro ⟨hne, ⟨-, y, hheard, hy⟩ | rfl⟩
      · exact ⟨hne, y, .inl hheard, hy⟩
      · exact ⟨hne, x, .inr ⟨rfl, rfl⟩, rfl⟩
    · rintro ⟨hne, y, hheard | ⟨-, rfl⟩, rfl⟩
      · exact ⟨hne, .inl ⟨hne, y, hheard, rfl⟩⟩
      · exact ⟨hne, .inr rfl⟩

/-- The first row of a route. -/
theorem describes_first (payloadType : String) (hid : row.id = r) (hnone : ∀ y, ¬ heard r y)
    (htime : row.lastHeard = x.heardAt)
    (hnames : row.payloadTypeNames = Database.payloadTypes [] payloadType)
    (hx : x.payloadType = upperTrim payloadType) : Describes (Also heard r x) row where
  attained := ⟨x, .inr ⟨hid, rfl⟩, htime.symm⟩
  latest y hheard := by
    rcases hheard with hold | ⟨-, rfl⟩
    · exact absurd (hid ▸ hold) (hnone y)
    · exact le_of_eq htime.symm
  payloadTypes name := by
    rw [hnames, mem_payloadTypes (by simp), ← hx, hid]
    simp [Also, hnone, eq_comm]

/-- The segment of an edge adds the edge to the hearings of its route. -/
theorem Reflects.upsertSegment (h : Reflects heard rows)
    (hnormal : ∀ r y, heard r y → upperTrim y.payloadType = y.payloadType) (edge : EdgeEvent)
    (index : PathHash3Index) (segment : EdgeSegment) :
    Reflects (Also heard (segmentRoute segment) (hearing edge))
      (Database.upsertSegment edge rows (publicSegment index segment)) := by
  have hid := id_summaryRow edge index segment
  have htime : (Database.summaryRow edge (publicSegment index segment)).lastHeard = edge.heardAt :=
    rfl
  refine ⟨nodup_upsertSegment edge index segment h.keys, fun row hrow => ?_, fun r y hheard => ?_⟩
  · rw [upsertSegment_eq_bump] at hrow
    generalize Database.summaryRow edge (publicSegment index segment) = new at hid htime hrow
    rcases Counting.mem_bump hrow with ⟨old, hold, hkey, rfl⟩ | ⟨hold, hkey⟩ | ⟨hnone, rfl⟩
    · have hkey : old.id = segmentRoute segment := hkey
      rw [← hkey]
      exact (h.described old hold).more edge.payloadTypeName (fun y => hnormal old.id y)
        (hid.trans hkey.symm) rfl rfl rfl
    · exact (h.described row hold).other hkey
    · have hfirst : ∀ y, ¬ heard (segmentRoute segment) y := fun y hheard =>
        hnone (h.complete _ y hheard)
      refine describes_first edge.payloadTypeName ?_ hfirst ?_ ?_ ?_
      · exact hid
      · exact htime
      · dsimp only
      · rfl
  · have hkeys : (Database.upsertSegment edge rows (publicSegment index segment)).map
        PublicRoute.id = if segmentRoute segment ∈ rows.map PublicRoute.id then
          rows.map PublicRoute.id else rows.map PublicRoute.id ++ [segmentRoute segment] := by
      rw [upsertSegment_eq_bump]
      refine Counting.keys_bump (t := routeCounting) (fun _ _ => ?_) ?_ rows
      · exact hid
      · exact hid
    rw [hkeys]
    rcases hheard with hold | ⟨rfl, -⟩
    · have := h.complete r y hold
      split
      · exact this
      · exact List.mem_append_left _ this
    · split
      · assumption
      · exact List.mem_append_right _ (List.mem_singleton_self _)

/-- The segments of an edge add it to the hearings of their routes. -/
theorem Reflects.foldl_upsertSegment (h : Reflects heard rows)
    (hnormal : ∀ r y, heard r y → upperTrim y.payloadType = y.payloadType) (edge : EdgeEvent)
    (index : PathHash3Index) (segments : List EdgeSegment) :
    Reflects (fun r y => heard r y ∨ r ∈ segments.map segmentRoute ∧ y = hearing edge)
      ((segments.map (publicSegment index)).foldl (Database.upsertSegment edge) rows) := by
  induction segments generalizing heard rows with
  | nil => exact h.congr fun r y => by simp
  | cons segment segments ih =>
    have hnormal' : ∀ r y, Also heard (segmentRoute segment) (hearing edge) r y →
        upperTrim y.payloadType = y.payloadType := by
      rintro r y (hold | ⟨-, rfl⟩)
      · exact hnormal r y hold
      · exact upperTrim_upperTrim _
    have hrest := ih (h.upsertSegment hnormal edge index segment) hnormal'
    rw [List.map_cons, List.map_cons, List.foldl_cons]
    refine Reflects.congr (fun r y => ?_) hrest
    rw [List.mem_cons]
    unfold Also
    tauto

/-! ## What the projected edges say -/

section Env

variable [LiveEnv]

/-- The routes an edge counts on. -/
def edgeRoutes (edge : EdgeEvent) : List String := (mappableSegments edge).map segmentRoute

theorem mem_edgeRoutes {edge : EdgeEvent} {r : String} :
    r ∈ edgeRoutes edge ↔ 0 < edgeCount r edge := by
  unfold edgeRoutes edgeCount
  rw [List.mem_map, Int.natCast_pos, List.countP_pos_iff]
  simp

/-- What the projected edges on a route say. -/
def heardOn (db : Database) (r : String) (y : Hearing) : Prop :=
  ∃ edge ∈ db.edges, edge.id ∈ db.projected ∧ 0 < edgeCount r edge ∧ hearing edge = y

theorem heardOn.normal {db : Database} {r : String} {y : Hearing} (h : heardOn db r y) :
    upperTrim y.payloadType = y.payloadType := by
  obtain ⟨edge, -, -, -, rfl⟩ := h
  exact upperTrim_upperTrim _

/-- The summaries count the projected edges and say what they say. -/
structure Summarized (db : Database) : Prop where
  consistent : db.Consistent
  reflects : Reflects (heardOn db) db.summaries

omit [LiveEnv] in
theorem hearing_congr {a b : EdgeEvent} (htime : a.heardAt = b.heardAt)
    (hname : a.payloadTypeName = b.payloadTypeName) : hearing a = hearing b := by
  rw [hearing, hearing, htime, hname]

omit [LiveEnv] in
theorem knows_of_stored {db : Database} {event : EdgeEvent} (h : StoredEdge db event) :
    db.Knows event := by
  obtain ⟨row, hrow, hid, hsegments, -⟩ := h
  exact ⟨row, hrow, hid, hsegments⟩

/-- What is said after a projection of a stored edge that was not projected. -/
theorem heardOn_upsert {db : Database} (hids : (db.edges.map EdgeEvent.id).Nodup)
    {edge : EdgeEvent} (hstored : StoredEdge db edge)
    (hskip : ¬ (edge.id ≤ 0 ∨ edge.id ∈ db.projected)) (r : String) (y : Hearing) :
    heardOn db r y ∨ r ∈ edgeRoutes edge ∧ y = hearing edge ↔
      heardOn (db.upsertPublicRouteSummariesTx edge) r y := by
  obtain ⟨row, hrow, hid, hsegments, htime, hname⟩ := hstored
  unfold heardOn
  rw [edges_upsert, projected_upsert, if_neg hskip, mem_edgeRoutes,
    ← edgeCount_congr hsegments, ← hearing_congr htime hname]
  constructor
  · rintro (⟨e, he, hprojected, hcount⟩ | ⟨hcount, rfl⟩)
    · exact ⟨e, he, List.mem_append_left _ hprojected, hcount⟩
    · exact ⟨row, hrow, hid ▸ List.mem_append_right _ (List.mem_singleton_self _), hcount, rfl⟩
  · rintro ⟨e, he, hprojected, hcount, hy⟩
    rcases List.mem_append.mp hprojected with hold | hnew
    · exact .inl ⟨e, he, hold, hcount, hy⟩
    · -- identifiers are unique, so this is the row of the edge
      have heq : e = row := List.inj_on_of_nodup_map hids he hrow
        ((List.mem_singleton.mp hnew).trans hid.symm)
      subst heq
      exact .inr ⟨hcount, hy.symm⟩

/-- Projecting a stored edge keeps the summaries right. -/
theorem Summarized.upsert {db : Database} (h : Summarized db) {edge : EdgeEvent}
    (hstored : StoredEdge db edge) : Summarized (db.upsertPublicRouteSummariesTx edge) := by
  refine ⟨h.consistent.upsert (knows_of_stored hstored), ?_⟩
  by_cases hskip : edge.id ≤ 0 ∨ edge.id ∈ db.projected
  · rw [Database.upsertPublicRouteSummariesTx, if_pos hskip]
    exact h.reflects
  · refine Reflects.congr (heardOn_upsert h.consistent.ids hstored hskip) ?_
    rw [Database.upsertPublicRouteSummariesTx, if_neg hskip]
    dsimp only
    split
    · -- an edge without mappable segments is on no route
      rename_i hnone
      refine h.reflects.congr fun r y => ?_
      rw [edgeRoutes, (publicRoutePulseFromEdge_eq_none_iff edge _).mp hnone]
      simp
    · rename_i pulse hpulse
      rw [segments_of_pulse hpulse]
      exact h.reflects.foldl_upsertSegment (fun _ _ => heardOn.normal) edge [] _

theorem storedEdge_upsert {db : Database} {edge event : EdgeEvent} :
    StoredEdge (db.upsertPublicRouteSummariesTx edge) event ↔ StoredEdge db event := by
  rw [StoredEdge, StoredEdge, edges_upsert]

/-- A transaction over stored edges. -/
theorem Summarized.foldl_upsert {db : Database} (h : Summarized db) (edges : List EdgeEvent)
    (hstored : ∀ edge ∈ edges, StoredEdge db edge) :
    Summarized (edges.foldl Database.upsertPublicRouteSummariesTx db) ∧
      (edges.foldl Database.upsertPublicRouteSummariesTx db).edges = db.edges := by
  induction edges generalizing db with
  | nil => exact ⟨h, rfl⟩
  | cons edge edges ih =>
    have hfirst := h.upsert (hstored edge List.mem_cons_self)
    obtain ⟨hrest, hedges⟩ := ih hfirst fun e he =>
      storedEdge_upsert.mpr (hstored e (List.mem_cons_of_mem _ he))
    exact ⟨hrest, hedges.trans (edges_upsert db edge)⟩

/-- A transaction over edges that are counted already. -/
theorem foldl_upsert_counted {db : Database} (edges : List EdgeEvent)
    (hcounted : ∀ edge ∈ edges, edge.id ∈ db.projected) :
    edges.foldl Database.upsertPublicRouteSummariesTx db = db := by
  induction edges with
  | nil => rfl
  | cons edge edges ih =>
    have hskip : edge.id ≤ 0 ∨ edge.id ∈ db.projected := .inr (hcounted edge List.mem_cons_self)
    rw [List.foldl_cons, Database.upsertPublicRouteSummariesTx, if_pos hskip]
    exact ih fun e he => hcounted e (List.mem_cons_of_mem _ he)

/-! ## Transactions of calls -/

/-- Whatever the call, its transaction projects its edges one after the other. -/
theorem toDatabase_commit (db : PathDatabase) (call : ProjectionCall) :
    (call.commit db).toDatabase =
      call.edges.foldl Database.upsertPublicRouteSummariesTx db.toDatabase := by
  cases call with
  | projectEdgeEvent event =>
    show (db.projectEdgeEvent event).toDatabase =
      db.toDatabase.upsertPublicRouteSummariesTx event
    unfold PathDatabase.projectEdgeEvent
    split
    · rename_i hid
      rw [Database.upsertPublicRouteSummariesTx, if_pos (.inl hid)]
    · simp
  | backfillPublicPacketPaths edges => exact PathDatabase.toDatabase_foldl (fun db edge => by simp) edges db
  | backfillPublicRouteSummaries edges => exact PathDatabase.toDatabase_foldl (fun _ _ => rfl) edges db

/-! ## Runs -/

/-- What every schedule keeps. -/
structure ScheduleInv (s : ProjectionState) : Prop where
  summarized : Summarized s.db.toDatabase
  stored : ∀ call ∈ s.calls, ∀ edge ∈ call.edges, StoredEdge s.db.toDatabase edge

theorem summarized_unprojected {db : PathDatabase} (h : Unprojected db) :
    Summarized db.toDatabase where
  consistent :=
    { sequence := h.sequence
      ids := h.ids
      bounded := h.bounded
      projected_le := by simp [h.projected]
      keys := by simp [h.summaries]
      counted := fun r => by simp [h.projected, h.summaries] }
  reflects :=
    { keys := by simp [h.summaries]
      described := by simp [h.summaries]
      complete := by
        rintro r y ⟨edge, -, hprojected, -⟩
        simp [h.projected] at hprojected }

omit [LiveEnv] in
/-- What a query returns is stored. -/
theorem storedEdge_joined {db : Database} {edge : EdgeEvent} (hedge : edge ∈ db.edges) :
    StoredEdge db (db.joined edge) :=
  ⟨edge, hedge, rfl, rfl, rfl, rfl⟩

omit [LiveEnv] in
theorem storedEdge_selected {db : Database} (selected : EdgeEvent → Bool)
    {before : EdgeEvent → EdgeEvent → Prop} [DecidableRel before] {n : Nat} {edge : EdgeEvent}
    (hedge : edge ∈ (((db.edges.filter selected).insertionSort before).take n).map db.joined) : StoredEdge db edge := by
  obtain ⟨row, hrow, rfl⟩ := List.mem_map.mp hedge
  have hmem := (List.mem_insertionSort _).mp (List.mem_of_mem_take hrow)
  exact storedEdge_joined (List.mem_of_mem_filter hmem)

/-- A call more. -/
theorem ScheduleInv.call {s : ProjectionState} (h : ScheduleInv s) {call : ProjectionCall}
    (hstored : ∀ edge ∈ call.edges, StoredEdge s.db.toDatabase edge) :
    ScheduleInv { s with calls := s.calls ++ [call] } := by
  refine ⟨h.summarized, fun other hother => ?_⟩
  rcases List.mem_append.mp hother with hold | hnew
  · exact h.stored other hold
  · rw [List.mem_singleton.mp hnew]
    exact hstored

/-- A transaction commits. -/
theorem ScheduleInv.commit {s : ProjectionState} (h : ScheduleInv s) {i : Nat}
    {call : ProjectionCall} (hcall : s.calls[i]? = some call) :
    ScheduleInv { db := call.commit s.db, calls := s.calls.eraseIdx i } := by
  have hstored := h.stored call (List.mem_of_getElem? hcall)
  obtain ⟨hsummarized, hedges⟩ := h.summarized.foldl_upsert call.edges hstored
  have hdb := toDatabase_commit s.db call
  refine ⟨hdb ▸ hsummarized, fun other hother edge hedge => ?_⟩
  have hold := h.stored other (List.mem_of_mem_eraseIdx hother) edge hedge
  unfold StoredEdge at hold ⊢
  rw [show (call.commit s.db).toDatabase.edges = s.db.edges from hdb ▸ hedges]
  exact hold

theorem scheduleInv {s : ProjectionState} (h : projecting.Reachable s) : ScheduleInv s := by
  refine TSys.InductiveOn.invariant ⟨?_, ?_⟩ h
  · rintro s ⟨hdb, hcalls⟩
    refine ⟨summarized_unprojected hdb, ?_⟩
    rw [hcalls]
    exact fun call hcall => absurd hcall List.not_mem_nil
  · intro s a s' hinv _ hstep
    replace hstep : projectionStep s a = some s' := hstep
    cases a with
    | project event =>
      simp only [projectionStep] at hstep
      split at hstep
      · rename_i hevent
        cases hstep
        refine hinv.call fun edge hedge => ?_
        rw [List.mem_singleton.mp hedge]
        exact hevent
      · cases hstep
    | selectPaths now fromMs toMs limit =>
      cases hstep
      exact hinv.call fun edge hedge => storedEdge_selected _ hedge
    | selectSummaries now fromMs toMs limit =>
      cases hstep
      exact hinv.call fun edge hedge => storedEdge_selected _ hedge
    | commit i =>
      simp only [projectionStep] at hstep
      obtain ⟨call, hcall, rfl⟩ := Option.map_eq_some_iff.mp hstep
      exact hinv.commit hcall
    | rollback i =>
      simp only [projectionStep] at hstep
      obtain ⟨call, hcall, rfl⟩ := Option.map_eq_some_iff.mp hstep
      exact ⟨hinv.summarized, fun other hother =>
        hinv.stored other (List.mem_of_mem_eraseIdx hother)⟩

/-! ## The main result -/

/-- The edges that were projected. -/
def projectedEdges (db : Database) : List EdgeEvent :=
  db.edges.filter fun edge => edge.id ∈ db.projected

/-- The route summaries say what the projected edges say, and a call over counted
edges changes none of them. -/
structure Exact (db : PathDatabase) : Prop where
  routes : (db.summaries.map PublicRoute.id).Nodup
  complete : ∀ edge ∈ projectedEdges db.toDatabase, ∀ r, 0 < edgeCount r edge →
    r ∈ db.summaries.map PublicRoute.id
  packetCount : ∀ row ∈ db.summaries,
    row.packetCount = ((projectedEdges db.toDatabase).map (edgeCount row.id)).sum
  lastHeard : ∀ row ∈ db.summaries,
    IsGreatest {time | ∃ edge ∈ projectedEdges db.toDatabase,
      0 < edgeCount row.id edge ∧ edge.heardAt = time} row.lastHeard
  payloadTypes : ∀ row ∈ db.summaries, ∀ name, name ∈ row.payloadTypeNames ↔
    name ≠ "" ∧ ∃ edge ∈ projectedEdges db.toDatabase,
      0 < edgeCount row.id edge ∧ upperTrim edge.payloadTypeName = name
  counted : ∀ call : ProjectionCall, (∀ edge ∈ call.edges, edge.id ∈ db.projected) →
    (call.commit db).summaries = db.summaries

theorem heardOn_iff {db : Database} {r : String} {y : Hearing} :
    heardOn db r y ↔ ∃ edge ∈ projectedEdges db, 0 < edgeCount r edge ∧ hearing edge = y := by
  simp only [heardOn, projectedEdges, List.mem_filter, decide_eq_true_eq, and_assoc]

theorem Summarized.exact {db : PathDatabase} (h : Summarized db.toDatabase) : Exact db where
  routes := h.reflects.keys
  complete edge hedge r hcount := h.reflects.complete r (hearing edge)
    (heardOn_iff.mpr ⟨edge, hedge, hcount, rfl⟩)
  packetCount row hrow := by
    have hone : routeCounting.tally row.id db.summaries = row.packetCount :=
      Counting.tally_of_mem (t := routeCounting) h.reflects.keys hrow
    exact hone.symm.trans (h.consistent.counted row.id)
  lastHeard row hrow := by
    have hrow := h.reflects.described row hrow
    constructor
    · obtain ⟨y, hheard, htime⟩ := hrow.attained
      obtain ⟨edge, hedge, hcount, rfl⟩ := heardOn_iff.mp hheard
      exact ⟨edge, hedge, hcount, htime⟩
    · rintro time ⟨edge, hedge, hcount, rfl⟩
      exact hrow.latest (hearing edge) (heardOn_iff.mpr ⟨edge, hedge, hcount, rfl⟩)
  payloadTypes row hrow name := by
    rw [(h.reflects.described row hrow).payloadTypes name]
    refine and_congr_right fun _ => ⟨?_, ?_⟩
    · rintro ⟨y, hheard, rfl⟩
      obtain ⟨edge, hedge, hcount, rfl⟩ := heardOn_iff.mp hheard
      exact ⟨edge, hedge, hcount, rfl⟩
    · rintro ⟨edge, hedge, hcount, rfl⟩
      exact ⟨hearing edge, heardOn_iff.mpr ⟨edge, hedge, hcount, rfl⟩, rfl⟩
  counted call hcounted := by
    have hdb := toDatabase_commit db call
    rw [foldl_upsert_counted call.edges hcounted] at hdb
    exact congrArg Database.summaries hdb

/-- **Route summaries count every edge exactly once.** Whatever edges are stored,
and in whatever order projections and backfills over them are called, select
their edges, commit and roll back: every summary counts the mappable segments of
the projected edges on its route, was last heard when the latest of them was, and
has their payload types; and a call over counted edges changes no summary. -/
theorem summaries_exact {s : ProjectionState} (h : projecting.Reachable s) : Exact s.db :=
  (scheduleInv h).summarized.exact

end Env

section Runs

open CartoLive.App

attribute [local instance] defaultEnv

/-- Two edges that go forth and back, and one that is nowhere. -/
def threeEdges : PathDatabase :=
  { emptyDatabase with
    packetPaths := []
    edgeSequence := 3
    edges :=
      [{ sampleEdge with id := 1 }, { sampleEdge with id := 2, segments := [], heardAt := 3000 },
        { sampleEdge with
          id := 3, heardAt := 2000, payloadTypeName := " trace"
          segments := sampleEdge.segments ++ sampleEdge.segments }] }

/-- Two backfills select the same edges and both commit, after a projection that
rolled back and before one that repeats an edge. -/
def overlappingBackfills : List ProjectionAct :=
  [.project { sampleEdge with id := 1 }, .selectPaths 10000 0 0 0, .selectSummaries 10000 0 0 0,
    .rollback 0, .commit 1, .commit 0, .project { sampleEdge with id := 1 }, .commit 0]

theorem overlappingBackfills_exact :
    ∃ s, projecting.Reachable s ∧
      s.db.summaries.map (fun row => (row.packetCount, row.lastHeard, row.payloadTypeNames)) =
        [(3, 2000, ["ADVERT", "TRACE"])] ∧ Exact s.db := by
  obtain ⟨s, hs, hrows⟩ := TSys.exists_reachable_of_run (M := projecting) (s := ⟨threeEdges, []⟩)
    overlappingBackfills
    (fun s => decide (s.db.summaries.map
      (fun row => (row.packetCount, row.lastHeard, row.payloadTypeNames)) =
        [(3, 2000, ["ADVERT", "TRACE"])]))
    ⟨⟨by decide, by decide, by decide, rfl, rfl, rfl⟩, rfl⟩ (by decide +kernel)
  exact ⟨s, hs, of_decide_eq_true hrows, summaries_exact hs⟩

end Runs

end CartoLive.Theorems.RouteSummaries
