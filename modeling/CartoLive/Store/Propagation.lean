import CartoLive.Store.Labels
import CartoLive.Store.PacketPaths

/-!
# Propagation events

The table `propagation_events` and its paged query, from `propagation.go`. What an
event says about its path, the weather and the sun is left out: no modelled
query looks at it.
-/

namespace CartoLive.Store

open CartoLive.Lib CartoLive.Go CartoLive.Live

/-- A row of `propagation_events`; `heardAt` is its column `at_ms`. -/
structure PropagationRow where
  id : Int
  publicID : String
  edgeID : Int
  heardAt : Int
  region : String
  deriving DecidableEq

/-- `PublicPropagationEvent`; `heardAt` is its field `At`. -/
structure PublicPropagationEvent where
  id : String
  heardAt : Int
  region : String
  deriving DecidableEq

/-- `PublicPropagationEventQuery`. -/
structure PublicPropagationEventQuery where
  fromMs : Int
  toMs : Int
  limit : Int
  cursor : Option HistoryCursor
  newestFirst : Bool
  region : String

/-- The cursor of an event; propagation events have type order 3. -/
def propagationCursor (row : PropagationRow) : HistoryCursor :=
  { heardAt := row.heardAt, typeOrder := 3, id := row.id }

/-- `propagationEdgeID`. -/
def propagationEdgeID (id : String) : Int :=
  match parseInt (trimPrefix (trimPrefix (trimSpace id) "prop-") "pulse-") with
  | none => 0
  | some value => if value ≤ 0 then 0 else value

/-- `publicSafePropagationID`. -/
def publicSafePropagationID (id : String) : String :=
  let id := trimSpace id
  if "prop-".toList <+: id.toList ∧ 0 < propagationEdgeID id then id else "prop-0"

/-- `scanPropagationEvent`, which sanitises the event. -/
def scanPropagationEvent (row : PropagationRow) : PublicPropagationEvent :=
  { id := publicSafePropagationID row.publicID
    heardAt := row.heardAt
    region := toUpper (publicDisplayText row.region 16) }

/-- The conditions of `PublicPropagationEvents` on a row. -/
def propagationCondition (now : Int) (query : PublicPropagationEventQuery) (row : PropagationRow) :
    Prop :=
  query.fromMs ≤ row.heardAt ∧ row.heardAt ≤ boundedHistoryTo now query.toMs ∧
    (upperTrim query.region = "" ∨ row.region = upperTrim query.region)

instance (now : Int) (query : PublicPropagationEventQuery) :
    DecidablePred (propagationCondition now query) := fun row => by
  unfold propagationCondition
  infer_instance

/-- The row limit that `PublicPropagationEvents` works with. -/
def propagationLimit (limit : Int) : Nat :=
  (if limit ≤ 0 ∨ 200 < limit then 50 else limit).toNat

/-- `PublicPropagationEvents`: the events within the limit, and the cursor of the
last of them if the query has one row more. -/
def publicPropagationEvents (table : List PropagationRow) (now : Int)
    (query : PublicPropagationEventQuery) : List PublicPropagationEvent × Option HistoryCursor :=
  let limit := propagationLimit query.limit
  let rows := (selectRows query.newestFirst propagationCursor query.cursor
    (propagationCondition now query) table).take (limit + 1)
  let read := rows.take limit
  (read.map scanPropagationEvent,
    if limit < rows.length then read.getLast?.map propagationCursor else none)

/-- `LatestPropagationConditions`: the latest event of a window, and how many it has. -/
def latestPropagationConditions (table : List PropagationRow) (now fromMs toMs : Int) :
    Option PublicPropagationEvent × Nat :=
  ((publicPropagationEvents table now
      { fromMs, toMs, limit := 1, cursor := none, newestFirst := true, region := "" }).1.head?,
    (table.filter fun row =>
      fromMs ≤ row.heardAt ∧ row.heardAt ≤ boundedHistoryTo now toMs).length)

/-- Events carry the regions of their packets, or none. -/
def RegionsParsed (table : List PropagationRow) : Prop :=
  ∀ row ∈ table, row.region = "" ∨ ∃ part, parseRegion part = some row.region

/-- The region of an event is that of its row. -/
theorem region_scanPropagationEvent {table : List PropagationRow} (h : RegionsParsed table)
    {row : PropagationRow} (hrow : row ∈ table) : (scanPropagationEvent row).region = row.region := by
  show toUpper (publicDisplayText row.region 16) = row.region
  rcases h row hrow with hempty | ⟨part, hpart⟩
  · rw [hempty]
    rfl
  · rw [publicDisplayText_of_parseRegion hpart,
      (of_upperTrim_eq (upperTrim_of_parseRegion hpart)).2]

/-- What `PublicPropagationEvents` returns, in terms of the rows that come next. -/
theorem publicPropagationEvents_eq (table : List PropagationRow) (now : Int)
    (query : PublicPropagationEventQuery) {rows : List PropagationRow}
    (hrows : rows = rowsBeyond (HistoryCursor.Before query.newestFirst) propagationCursor query.cursor
      (selectRows query.newestFirst propagationCursor none (propagationCondition now query) table)) :
    publicPropagationEvents table now query =
      ((rows.take (propagationLimit query.limit)).map scanPropagationEvent,
        if propagationLimit query.limit < rows.length then
          (rows.take (propagationLimit query.limit)).getLast?.map propagationCursor
        else none) := by
  unfold publicPropagationEvents
  rw [selectRows_eq, ← hrows]
  dsimp only
  generalize propagationLimit query.limit = n
  rw [List.take_take, Nat.min_eq_left (Nat.le_succ n)]
  exact congrArg _ (if_congr (lt_length_take_succ rows n) rfl rfl)

end CartoLive.Store

/-!
## Propagation candidates

The packet paths that have no propagation event yet, and the write of an event, from
`propagation.go`. The rows of `public_packet_paths` carry their length here. Of an
event, the columns are those of `Store.Propagation`.
-/

namespace CartoLive.Store

open CartoLive.Lib CartoLive.Go CartoLive.Live

/-- A row of `public_packet_paths` with its column `distance_km`. -/
structure MeasuredRow extends PacketPathRow where
  distanceKM : F64
  deriving DecidableEq

/-- `PublicPacketPath` with its field `DistanceKM`. -/
structure MeasuredPath extends PublicPacketPath where
  distanceKM : F64
  deriving DecidableEq

/-- The tables of packet paths and of propagation events; `lastEventID` is the last
identifier that `AUTOINCREMENT` gave an event. -/
structure PropagationStore where
  paths : List MeasuredRow
  events : List PropagationRow
  lastEventID : Int
  deriving DecidableEq

def measuredCursor (row : MeasuredRow) : HistoryCursor := rowCursor row.toPacketPathRow

/-- `scanPublicPacketPathProjection`, with the length. -/
def scanMeasuredPath (row : MeasuredRow) : MeasuredPath :=
  { toPublicPacketPath := scanPublicPacketPathProjection row.toPacketPathRow
    distanceKM := row.distanceKM }

namespace PropagationStore

variable (s : PropagationStore)

/-- `EXISTS (SELECT 1 FROM propagation_events e WHERE e.edge_id = ?)`. -/
def HasEvent (edgeID : Int) : Prop := ∃ event ∈ s.events, event.edgeID = edgeID

instance (edgeID : Int) : Decidable (s.HasEvent edgeID) := by
  unfold HasEvent
  infer_instance

/-- The conditions of `PropagationCandidatePaths` on a row. -/
def candidateCondition (now fromMs toMs : Int) (minDistanceKM : F64) (row : MeasuredRow) : Prop :=
  row.mappable = true ∧ fromMs ≤ row.heardAt ∧ row.heardAt ≤ boundedHistoryTo now toMs ∧
    minDistanceKM.le row.distanceKM = true ∧ ¬s.HasEvent row.edgeID

instance (now fromMs toMs : Int) (minDistanceKM : F64) :
    DecidablePred (s.candidateCondition now fromMs toMs minDistanceKM) := fun row => by
  unfold candidateCondition
  infer_instance

/-- The rows of the query, the newest first, before its `LIMIT`. -/
def candidateRows (now fromMs toMs : Int) (minDistanceKM : F64) : List MeasuredRow :=
  selectRows true measuredCursor none (s.candidateCondition now fromMs toMs minDistanceKM) s.paths

/-- `PropagationCandidatePaths`. -/
def propagationCandidatePaths (now fromMs toMs : Int) (minDistanceKM : F64) (limit : Int) :
    List MeasuredPath :=
  let limit := if limit ≤ 0 ∨ 500 < limit then 100 else limit
  ((s.candidateRows now fromMs toMs minDistanceKM).take limit.toNat).map scanMeasuredPath

/-- `sanitizePropagationEvent`. -/
def sanitizePropagationEvent (event : PublicPropagationEvent) : PublicPropagationEvent :=
  { event with
    id := publicSafePropagationID event.id
    region := toUpper (publicDisplayText event.region 16) }

/-- `ON CONFLICT(edge_id) DO UPDATE`. -/
def overwrite (edgeID : Int) (event : PublicPropagationEvent) (row : PropagationRow) :
    PropagationRow :=
  if row.edgeID = edgeID then
    { row with publicID := event.id, heardAt := event.heardAt, region := event.region }
  else row

/-- `UpsertPropagationEvent`. -/
def upsertPropagationEvent (event : PublicPropagationEvent) : PropagationStore :=
  let edgeID := propagationEdgeID event.id
  if edgeID ≤ 0 then s
  else
    let event := sanitizePropagationEvent event
    if s.HasEvent edgeID then { s with events := s.events.map (overwrite edgeID event) }
    else
      { s with
        events := s.events ++
          [{ id := s.lastEventID + 1, publicID := event.id, edgeID, heardAt := event.heardAt
             region := event.region }]
        lastEventID := s.lastEventID + 1 }

theorem paths_upsertPropagationEvent (event : PublicPropagationEvent) :
    (s.upsertPropagationEvent event).paths = s.paths := by
  unfold upsertPropagationEvent
  dsimp only
  split
  · rfl
  split <;> rfl

theorem edgeID_overwrite (edgeID : Int) (event : PublicPropagationEvent) (row : PropagationRow) :
    (overwrite edgeID event row).edgeID = row.edgeID := by
  unfold overwrite
  split <;> rfl

/-- An upsert adds the event of its edge and takes none away. -/
theorem hasEvent_upsertPropagationEvent {event : PublicPropagationEvent}
    (hpos : 0 < propagationEdgeID event.id) (edgeID : Int) :
    (s.upsertPropagationEvent event).HasEvent edgeID ↔
      edgeID = propagationEdgeID event.id ∨ s.HasEvent edgeID := by
  unfold upsertPropagationEvent
  dsimp only
  generalize sanitizePropagationEvent event = clean
  generalize propagationEdgeID event.id = id at hpos ⊢
  rw [if_neg (by omega)]
  split
  · rename_i hthere
    have hsame : (∃ row ∈ s.events.map (overwrite id clean), row.edgeID = edgeID) ↔
        s.HasEvent edgeID := by
      simp only [List.mem_map, exists_exists_and_eq_and, edgeID_overwrite]
      rfl
    refine hsame.trans ⟨.inr, ?_⟩
    rintro (rfl | hold)
    · exact hthere
    · exact hold
  · unfold HasEvent
    simp only [List.mem_append, List.mem_singleton, or_and_right, exists_or, exists_eq_left]
    rw [or_comm, eq_comm]

end PropagationStore

/-! ## Projected paths -/

/-- The rows that the projection writes: the identifiers of edges, each once, and segments
in the rows that are on the map. -/
structure Projected (paths : List MeasuredRow) : Prop where
  nodup : (paths.map fun row => row.edgeID).Nodup
  positive : ∀ row ∈ paths, 0 < row.edgeID
  segments : ∀ row ∈ paths, row.mappable = true → row.segments ≠ []

/-- The rows of stored edges are such rows, with any lengths. -/
theorem PathDatabase.ProjectionMade.projected [LiveEnv] {db : PathDatabase}
    (hmade : db.ProjectionMade) (hids : db.RowIDs) (distanceKM : PacketPathRow → F64) :
    Projected (db.packetPaths.map fun row =>
      { toPacketPathRow := row, distanceKM := distanceKM row }) where
  nodup := by
    rw [List.map_map]
    exact hmade.nodup
  positive row hrow := by
    obtain ⟨stored, hstored, rfl⟩ := List.mem_map.mp hrow
    obtain ⟨edge, hedge, rfl⟩ := hmade.rows stored hstored
    have hid : (pathRow edge).edgeID = edge.id :=
      congrArg HistoryCursor.id (rowOf_insertPublicPacketPath edge).cursor
    show 0 < (pathRow edge).edgeID
    rw [hid]
    exact hids.pos hedge
  segments row hrow hmappable := by
    obtain ⟨stored, hstored, rfl⟩ := List.mem_map.mp hrow
    obtain ⟨edge, hedge, rfl⟩ := hmade.rows stored hstored
    have hrowOf := rowOf_insertPublicPacketPath edge
    exact (hrowOf.path (hrowOf.mappable.mp hmappable)).2.2.2

end CartoLive.Store
