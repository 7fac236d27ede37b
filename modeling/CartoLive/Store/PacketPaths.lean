import CartoLive.Lib.Paging
import CartoLive.Live.PacketPaths
import CartoLive.Store.LiveState

/-!
# The packet-path projection and the paged queries

The table `public_packet_paths` (`public_packet_paths.go`) and the queries that
the history and packet pages read (`history.go`). The full-text search and its
index are left out, and so are the columns no modelled query reads; a JSON
column appears as the value it encodes.

Each paged query returns the first rows beyond its cursor of a table in order,
in the sense of the paging library.
-/

namespace CartoLive.Store

open CartoLive.Lib CartoLive.Go CartoLive.Live

/-! ## Cursors -/

/-- `HistoryCursor`; `heardAt` is its field `At`. -/
structure HistoryCursor where
  heardAt : Int
  typeOrder : Int
  id : Int
  deriving DecidableEq

/-- `heard_at_ms < ? OR (heard_at_ms = ? AND id < ?)`. -/
def HistoryCursor.Older (a b : HistoryCursor) : Prop :=
  a.heardAt < b.heardAt ∨ (a.heardAt = b.heardAt ∧ a.id < b.id)

/-- The order in which a query goes through its rows. -/
def HistoryCursor.Before (newestFirst : Bool) (a b : HistoryCursor) : Prop :=
  if newestFirst then b.Older a else a.Older b

instance (newestFirst : Bool) : DecidableRel (HistoryCursor.Before newestFirst) := fun a b => by
  unfold HistoryCursor.Before HistoryCursor.Older
  infer_instance

instance (newestFirst : Bool) :
    IsStrictOrder HistoryCursor (HistoryCursor.Before newestFirst) where
  irrefl a h := by
    unfold HistoryCursor.Before HistoryCursor.Older at h
    split at h <;> omega
  trans a b c hab hbc := by
    unfold HistoryCursor.Before HistoryCursor.Older at hab hbc ⊢
    cases newestFirst <;> simp only [Bool.false_eq_true, if_true, if_false] at hab hbc ⊢ <;> omega

/-- The cursor of an edge; route pulses have type order 2. -/
def edgeCursor (edge : EdgeEvent) : HistoryCursor :=
  { heardAt := edge.heardAt, typeOrder := 2, id := edge.id }

/-- `maxFutureEdgeSkew` bounds what is still heard. -/
def boundedHistoryTo (now toMs : Int) : Int :=
  let maxHeardAt := now + Database.maxFutureEdgeSkew
  if toMs ≤ 0 ∨ maxHeardAt < toMs then maxHeardAt else toMs

/-! ## The projection -/

/-- A row of `public_packet_paths`. -/
structure PacketPathRow where
  edgeID : Int
  observationID : Int
  mappable : Bool
  heardAt : Int
  iata : String
  region : String
  payloadTypeName : String
  messageSender : String
  messageText : String
  hopCount : Int
  segmentCount : Int
  routeIDs : List String
  endpointLabels : List String
  segments : List PublicRouteSegment
  deriving DecidableEq

def rowCursor (row : PacketPathRow) : HistoryCursor :=
  { heardAt := row.heardAt, typeOrder := 2, id := row.edgeID }

/-- `publicProjectionText`. -/
def publicProjectionText (value : String) : String := publicDisplayText value 500

/-- `sanitizeProjectedPacketPath`. -/
def sanitizeProjectedPacketPath (packet : PublicPacketPath) : PublicPacketPath :=
  { packet with
    messageSender := publicDisplayText packet.messageSender 80
    messageText := publicDisplayText packet.messageText 500
    endpointLabels := packet.endpointLabels.map fun label => publicDisplayText label 80
    segments := packet.segments.map fun segment =>
      { segment with
        source := Database.sanitizeEndpoint segment.source
        target := Database.sanitizeEndpoint segment.target } }

/-- `scanPublicPacketPathProjection`. -/
def scanPublicPacketPathProjection (row : PacketPathRow) : PublicPacketPath :=
  sanitizeProjectedPacketPath
    { id := pulseID row.edgeID
      heardAt := row.heardAt
      iata := row.iata
      region := row.region
      payloadTypeName := row.payloadTypeName
      messageSender := row.messageSender
      messageText := row.messageText
      hopCount := row.hopCount
      segmentCount := row.segmentCount
      routeIDs := row.routeIDs
      endpointLabels := row.endpointLabels
      segments := row.segments }

/-- The database with its projection. -/
structure PathDatabase extends Database where
  packetPaths : List PacketPathRow

/-! ## Queries -/

/-- `HistoryQuery`. -/
structure HistoryQuery where
  fromMs : Int
  toMs : Int
  limit : Int
  cursor : Option HistoryCursor
  newestFirst : Bool
  iata : String
  payloadTypeName : String

/-- `PublicPacketPathQuery`. -/
structure PublicPacketPathQuery where
  fromMs : Int
  toMs : Int
  limit : Int
  cursor : Option HistoryCursor
  newestFirst : Bool
  iata : String
  payloadTypeName : String
  minHops : Int
  messageOnly : Bool

/-- `HistoryEvent`. -/
structure HistoryEvent where
  type : String
  heardAt : Int
  typeOrder : Int
  id : Int
  packet : Option PacketObservation
  edge : Option EdgeEvent

/-- `HistoryEvent.Cursor`. -/
def HistoryEvent.cursor (event : HistoryEvent) : HistoryCursor :=
  { heardAt := event.heardAt, typeOrder := event.typeOrder, id := event.id }

/-- `HistoryEvent.IATA`. -/
def HistoryEvent.iata (event : HistoryEvent) : String :=
  match event.edge, event.packet with
  | some edge, _ => edge.iata
  | none, some packet => packet.iata
  | none, none => ""

/-- The row of an edge in `scanHistoryEvents`. -/
def routePulseEvent (edge : EdgeEvent) : HistoryEvent :=
  { type := "routePulse", heardAt := edge.heardAt, typeOrder := 2, id := edge.id
    packet := none, edge := some edge }

/-- `ORDER BY heard_at_ms ASC, id ASC`, or with `DESC`. -/
def rowOrder {α : Type} (newestFirst : Bool) (key : α → HistoryCursor) (a b : α) : Prop :=
  if (key a).heardAt = (key b).heardAt then
    if newestFirst then (key b).id ≤ (key a).id else (key a).id ≤ (key b).id
  else
    if newestFirst then (key b).heardAt < (key a).heardAt else (key a).heardAt < (key b).heardAt

instance {α : Type} (newestFirst : Bool) (key : α → HistoryCursor) :
    DecidableRel (rowOrder newestFirst key) := fun a b => by
  unfold rowOrder
  infer_instance

/-- The rows of a query beyond its cursor, in the order it asks for. -/
def selectRows {α : Type} (newestFirst : Bool) (key : α → HistoryCursor)
    (cursor : Option HistoryCursor) (p : α → Prop) [DecidablePred p] (table : List α) : List α :=
  (table.filter fun row => p row ∧ Beyond (HistoryCursor.Before newestFirst) cursor (key row)).insertionSort
    (rowOrder newestFirst key)

/-- `live_edge_events LEFT JOIN packet_observations`. -/
def Database.joinedEdges (db : Database) : List EdgeEvent := db.edges.map db.joined

namespace PathDatabase

variable (db : PathDatabase) (now : Int)

/-- The conditions of a history query on an edge. -/
def historyCondition (query : HistoryQuery) (edge : EdgeEvent) : Prop :=
  query.fromMs ≤ edge.heardAt ∧ edge.heardAt ≤ boundedHistoryTo now query.toMs ∧
    (upperTrim query.iata = "" ∨ toUpper edge.iata = upperTrim query.iata) ∧
    (upperTrim query.payloadTypeName = "" ∨
      toUpper edge.payloadTypeName = upperTrim query.payloadTypeName)

instance (query : HistoryQuery) : DecidablePred (historyCondition now query) := fun edge => by
  unfold historyCondition
  infer_instance

/-- `PublicHistoryEvents`. -/
def publicHistoryEvents (query : HistoryQuery) : List HistoryEvent :=
  let limit := if query.limit ≤ 0 ∨ 5000 < query.limit then 1000 else query.limit
  ((selectRows query.newestFirst edgeCursor query.cursor (historyCondition now query)
    db.joinedEdges).take limit.toNat).map routePulseEvent

/-- `PublicPacketEdgeEvents`: always the newest first. -/
def publicPacketEdgeEvents (query : HistoryQuery) : List EdgeEvent :=
  let limit := if query.limit ≤ 0 ∨ 2500 < query.limit then 1000 else query.limit
  (selectRows true edgeCursor query.cursor (historyCondition now query) db.joinedEdges).take
    limit.toNat

/-- `PublicPacketPathProjectionComplete`. -/
def publicPacketPathProjectionComplete (fromMs toMs : Int) : Bool :=
  !db.edges.any fun edge =>
    fromMs ≤ edge.heardAt && edge.heardAt ≤ boundedHistoryTo now toMs &&
      !db.packetPaths.any fun row => row.edgeID = edge.id

/-- The conditions of `PublicPacketPaths` on a row. -/
def packetPathCondition (query : PublicPacketPathQuery) (row : PacketPathRow) : Prop :=
  row.mappable = true ∧ query.fromMs ≤ row.heardAt ∧
    row.heardAt ≤ boundedHistoryTo now query.toMs ∧
    (upperTrim query.iata = "" ∨ row.region = upperTrim query.iata) ∧
    (upperTrim query.payloadTypeName = "" ∨
      row.payloadTypeName = upperTrim query.payloadTypeName) ∧
    (0 < query.minHops → query.minHops ≤ row.hopCount) ∧
    (query.messageOnly = true → row.messageText ≠ "")

instance (query : PublicPacketPathQuery) : DecidablePred (packetPathCondition now query) :=
  fun row => by
    unfold packetPathCondition
    infer_instance

/-- The row limit that `PublicPacketPaths` works with. -/
def packetPathLimit (limit : Int) : Nat :=
  (if limit ≤ 0 ∨ 1000 < limit then 500 else limit).toNat

theorem packetPathLimit_pos (limit : Int) : 0 < packetPathLimit limit := by
  unfold packetPathLimit
  split <;> omega

/-- `PublicPacketPaths`: the rows within the limit, and the cursor of the last of
them if the query has one row more. -/
def publicPacketPaths (query : PublicPacketPathQuery) :
    List PublicPacketPath × Option HistoryCursor :=
  let limit := packetPathLimit query.limit
  let rows := (selectRows query.newestFirst rowCursor query.cursor
    (packetPathCondition now query) db.packetPaths).take (limit + 1)
  let read := rows.take limit
  (read.map scanPublicPacketPathProjection,
    if limit < rows.length then read.getLast?.map rowCursor else none)

end PathDatabase

/-! ## Projecting an edge -/

section Env

variable [LiveEnv]

/-- The row that `insertPublicPacketPathTx` writes for an edge. -/
def insertPublicPacketPath (edge : EdgeEvent) (region : String) : PacketPathRow :=
  let edge := { edge with iata := upperTrim region }
  match publicPacketPath edge [] with
  | none =>
    { edgeID := edge.id, observationID := edge.observationID, mappable := false
      heardAt := edge.heardAt, iata := edge.iata, region := edge.iata
      payloadTypeName := upperTrim edge.payloadTypeName
      messageSender := publicProjectionText edge.messageSender
      messageText := publicProjectionText edge.messageText
      hopCount := 0, segmentCount := 0, routeIDs := [], endpointLabels := [], segments := [] }
  | some packet =>
    { edgeID := edge.id, observationID := edge.observationID, mappable := true
      heardAt := packet.heardAt, iata := edge.iata, region := edge.iata
      payloadTypeName := upperTrim packet.payloadTypeName
      messageSender := packet.messageSender
      messageText := packet.messageText
      hopCount := packet.hopCount
      segmentCount := packet.segmentCount
      routeIDs := packet.routeIDs
      endpointLabels := packet.endpointLabels
      segments := packet.segments }

/-- What a row of the projection says of its edge. -/
structure RowOf (edge : EdgeEvent) (row : PacketPathRow) : Prop where
  cursor : rowCursor row = edgeCursor edge
  mappable : row.mappable = true ↔ mappableSegments edge ≠ []
  iata : row.iata = upperTrim edge.iata
  region : row.region = upperTrim edge.iata
  path : mappableSegments edge ≠ [] →
    row.payloadTypeName = upperTrim edge.payloadTypeName ∧
      row.messageText = publicMessageText (publicMessageText edge.messageText) ∧
      row.hopCount = (mappableSegments edge).length ∧ row.segments ≠ []

theorem rowOf_insertPublicPacketPath (edge : EdgeEvent) :
    RowOf edge (insertPublicPacketPath edge edge.iata) := by
  have hsegments : mappableSegments { edge with iata := upperTrim edge.iata } =
      mappableSegments edge := by simp only [mappableSegments]
  unfold insertPublicPacketPath
  dsimp only
  by_cases hmappable : mappableSegments edge = []
  · rw [publicPacketPath_of_unmappable (hsegments.trans hmappable)]
    exact
      { cursor := rfl
        mappable := iff_of_false (fun h => by cases h) (not_not_intro hmappable)
        iata := rfl
        region := rfl
        path := fun h => absurd hmappable h }
  · obtain ⟨packet, hpacket, hpath⟩ := publicPacketPath_spec (hsegments.trans_ne hmappable) []
    rw [hpacket]
    dsimp only
    obtain ⟨-, hheard, -, hpayload, htext, hhops, hne⟩ := hpath
    rw [hsegments] at hhops
    dsimp only at hheard hpayload htext
    have htrim : upperTrim (trimSpace edge.payloadTypeName) = upperTrim edge.payloadTypeName := by
      simp only [upperTrim, trimSpace_trimSpace]
    exact
      { cursor := by
          unfold rowCursor edgeCursor
          rw [hheard]
        mappable := iff_of_true rfl hmappable
        iata := rfl
        region := rfl
        path := fun _ =>
          ⟨by rw [hpayload, htrim], htext, hhops, hne⟩ }

end Env

/-! ## Rows in order -/

section Rows

variable {α : Type} {newestFirst : Bool} {key : α → HistoryCursor}

theorem rowOrder_total (a b : α) : rowOrder newestFirst key a b ∨ rowOrder newestFirst key b a := by
  unfold rowOrder
  cases newestFirst <;> simp only [Bool.false_eq_true, if_true, if_false] <;> grind

theorem rowOrder_trans (a b c : α) (hab : rowOrder newestFirst key a b)
    (hbc : rowOrder newestFirst key b c) : rowOrder newestFirst key a c := by
  unfold rowOrder at hab hbc ⊢
  cases newestFirst <;> simp only [Bool.false_eq_true, if_true, if_false] at hab hbc ⊢ <;> grind

/-- What a query selects are the rows beyond its cursor of all the rows that meet
its condition, in order. -/
theorem selectRows_eq (cursor : Option HistoryCursor) (p : α → Prop) [DecidablePred p]
    (table : List α) :
    selectRows newestFirst key cursor p table =
      rowsBeyond (HistoryCursor.Before newestFirst) key cursor
        (selectRows newestFirst key none p table) := by
  have hall : (table.filter fun row =>
      p row ∧ Beyond (HistoryCursor.Before newestFirst) none (key row)) =
        table.filter fun row => p row := by
    refine List.filter_congr fun row _ => Bool.eq_iff_iff.mpr ?_
    rw [decide_eq_true_eq, decide_eq_true_eq]
    exact and_iff_left fun _ h => by cases h
  unfold selectRows
  rw [hall]
  exact insertionSort_filter_beyond rowOrder_total rowOrder_trans p cursor table

/-- Rows with different identifiers are selected in a strict order. -/
theorem pairwise_selectRows (htype : ∀ a b, (key a).typeOrder = (key b).typeOrder) {table : List α}
    (hids : (table.map fun a => (key a).id).Nodup) (cursor : Option HistoryCursor) (p : α → Prop)
    [DecidablePred p] :
    (selectRows newestFirst key cursor p table).Pairwise fun a b =>
      HistoryCursor.Before newestFirst (key a) (key b) := by
  refine pairwise_sorted rowOrder_total rowOrder_trans (fun a b hle hne => ?_) ?_
  · have hdiffer : ¬((key a).heardAt = (key b).heardAt ∧ (key a).id = (key b).id) := by
      rintro ⟨hheard, hid⟩
      refine hne ?_
      have hsame := htype a b
      generalize key a = x at hheard hid hsame ⊢
      generalize key b = y at hheard hid hsame ⊢
      obtain ⟨_, _, _⟩ := x
      obtain ⟨_, _, _⟩ := y
      dsimp only at hheard hid hsame
      rw [hheard, hid, hsame]
    unfold rowOrder at hle
    unfold HistoryCursor.Before HistoryCursor.Older
    cases newestFirst <;> simp only [Bool.false_eq_true, if_true, if_false] at hle ⊢ <;> grind
  · have hnodup : ((table.filter fun row =>
        p row ∧ Beyond (HistoryCursor.Before newestFirst) cursor (key row)).map
          fun a => (key a).id).Nodup :=
      hids.sublist (List.Sublist.map _ List.filter_sublist)
    refine List.Nodup.of_map HistoryCursor.id ?_
    rw [List.map_map]
    exact hnodup

theorem length_selectRows_le (cursor : Option HistoryCursor) (p : α → Prop) [DecidablePred p]
    (table : List α) : (selectRows newestFirst key cursor p table).length ≤ table.length := by
  unfold selectRows
  rw [List.length_insertionSort]
  exact List.length_filter_le ..

/-- A query that reads one row more than its limit knows whether there are others. -/
theorem lt_length_take_succ (rows : List α) (n : Nat) :
    n < (rows.take (n + 1)).length ↔ n < rows.length := by
  rw [List.length_take]
  omega

theorem selectRows_congr {p q : α → Prop} [DecidablePred p] [DecidablePred q] {table : List α}
    (h : ∀ row ∈ table, p row ↔ q row) (cursor : Option HistoryCursor) :
    selectRows newestFirst key cursor p table = selectRows newestFirst key cursor q table := by
  unfold selectRows
  congr 1
  refine List.filter_congr fun row hrow => Bool.eq_iff_iff.mpr ?_
  rw [decide_eq_true_eq, decide_eq_true_eq, h row hrow]

/-- A further condition filters what is selected. -/
theorem selectRows_and (cursor : Option HistoryCursor) (p q : α → Prop) [DecidablePred p]
    [DecidablePred q] (table : List α) :
    selectRows newestFirst key cursor (fun row => p row ∧ q row) table =
      (selectRows newestFirst key cursor p table).filter fun row => q row := by
  unfold selectRows
  rw [filter_insertionSort rowOrder_total rowOrder_trans, List.filter_filter]
  congr 1
  refine List.filter_congr fun row _ => Bool.eq_iff_iff.mpr ?_
  simp only [Bool.and_eq_true, decide_eq_true_eq]
  exact ⟨fun h => ⟨h.1.2, h.1.1, h.2⟩, fun h => ⟨⟨h.2.1, h.1⟩, h.2.2⟩⟩

theorem mem_selectRows {cursor : Option HistoryCursor} {p : α → Prop} [DecidablePred p]
    {table : List α} {row : α} :
    row ∈ selectRows newestFirst key cursor p table ↔
      row ∈ table ∧ p row ∧ Beyond (HistoryCursor.Before newestFirst) cursor (key row) := by
  unfold selectRows
  rw [(List.perm_insertionSort _ _).mem_iff, List.mem_filter, decide_eq_true_eq]

end Rows

/-! ## The projection of a database -/

section Projection

variable [LiveEnv]

/-- The row of an edge, projected with the region of its observation. -/
def pathRow (edge : EdgeEvent) : PacketPathRow := insertPublicPacketPath edge edge.iata

/-- Edges have row identifiers. -/
structure Database.RowIDs (db : Database) : Prop where
  nodup : (db.edges.map EdgeEvent.id).Nodup
  positive : ∀ edge ∈ db.edges, 0 < edge.id

namespace Database

variable {db : Database}

omit [LiveEnv] in
theorem map_id_joinedEdges : db.joinedEdges.map EdgeEvent.id = db.edges.map EdgeEvent.id := by
  unfold joinedEdges
  rw [List.map_map]
  rfl

omit [LiveEnv] in
/-- One identifier belongs to one edge. -/
theorem eq_of_id_eq (h : (db.edges.map EdgeEvent.id).Nodup) {a b : EdgeEvent}
    (ha : a ∈ db.joinedEdges) (hb : b ∈ db.joinedEdges) (heq : a.id = b.id) : a = b :=
  List.inj_on_of_nodup_map (map_id_joinedEdges ▸ h) ha hb heq

omit [LiveEnv] in
theorem RowIDs.pos (h : db.RowIDs) {edge : EdgeEvent} (hedge : edge ∈ db.joinedEdges) :
    0 < edge.id := by
  obtain ⟨stored, hstored, rfl⟩ := List.mem_map.mp hedge
  exact h.positive stored hstored

omit [LiveEnv] in
theorem RowIDs.pairwise_selectRows (h : db.RowIDs) (newestFirst : Bool)
    (cursor : Option HistoryCursor) (p : EdgeEvent → Prop) [DecidablePred p] :
    (selectRows newestFirst edgeCursor cursor p db.joinedEdges).Pairwise fun a b =>
      HistoryCursor.Before newestFirst (edgeCursor a) (edgeCursor b) :=
  Store.pairwise_selectRows (fun _ _ => rfl) (map_id_joinedEdges ▸ h.nodup) cursor p

end Database

namespace PathDatabase

/-- Every row of the projection is that of a stored edge, made under the current
coordinate policy; an edge has one row at most. -/
structure ProjectionMade (db : PathDatabase) : Prop where
  nodup : (db.packetPaths.map PacketPathRow.edgeID).Nodup
  rows : ∀ row ∈ db.packetPaths, ∃ edge ∈ db.joinedEdges, row = pathRow edge

variable {db : PathDatabase}

omit [LiveEnv] in
/-- Where the projection is complete, every edge of the window has a row. -/
theorem exists_row_of_complete {now fromMs toMs : Int}
    (h : db.publicPacketPathProjectionComplete now fromMs toMs = true) {edge : EdgeEvent}
    (hedge : edge ∈ db.joinedEdges) (hfrom : fromMs ≤ edge.heardAt)
    (hto : edge.heardAt ≤ boundedHistoryTo now toMs) :
    ∃ row ∈ db.packetPaths, row.edgeID = edge.id := by
  obtain ⟨stored, hstored, rfl⟩ := List.mem_map.mp hedge
  unfold publicPacketPathProjectionComplete at h
  simp only [Bool.not_eq_true', List.any_eq_false] at h
  have hrow := h stored hstored
  rw [Bool.and_eq_true, Bool.and_eq_true, decide_eq_true_eq, decide_eq_true_eq] at hrow
  by_contra hnone
  refine hrow ⟨⟨hfrom, hto⟩, ?_⟩
  rw [Bool.not_eq_true', List.any_eq_false]
  exact fun row hmem heq => hnone ⟨row, hmem, of_decide_eq_true heq⟩

/-- The projection with a row for every edge. -/
def projectAll (db : Database) : PathDatabase :=
  { toDatabase := db, packetPaths := db.joinedEdges.map pathRow }

theorem projectionMade_projectAll {db : Database} (hids : db.RowIDs) :
    (projectAll db).ProjectionMade where
  nodup := by
    have hid : ∀ edge, (pathRow edge).edgeID = edge.id :=
      fun edge => congrArg HistoryCursor.id (rowOf_insertPublicPacketPath edge).cursor
    show ((db.joinedEdges.map pathRow).map PacketPathRow.edgeID).Nodup
    rw [List.map_map, show PacketPathRow.edgeID ∘ pathRow = EdgeEvent.id from funext hid,
      Database.map_id_joinedEdges]
    exact hids.nodup
  rows row hrow := by
    obtain ⟨edge, hedge, rfl⟩ := List.mem_map.mp hrow
    exact ⟨edge, hedge, rfl⟩

theorem complete_projectAll (db : Database) (now fromMs toMs : Int) :
    (projectAll db).publicPacketPathProjectionComplete now fromMs toMs = true := by
  unfold publicPacketPathProjectionComplete
  rw [Bool.not_eq_true', List.any_eq_false]
  intro edge hedge
  have hrow : (projectAll db).packetPaths.any (fun row => row.edgeID = edge.id) = true := by
    refine List.any_eq_true.mpr ⟨pathRow (db.joined edge),
      List.mem_map_of_mem (List.mem_map_of_mem hedge), decide_eq_true ?_⟩
    exact congrArg HistoryCursor.id (rowOf_insertPublicPacketPath (db.joined edge)).cursor
  rw [hrow]
  simp

/-- **The projection reads like the edges**: the rows that a query selects are
those of the edges whose rows meet its condition. -/
theorem selectRows_packetPaths (hids : (db.edges.map EdgeEvent.id).Nodup) (hmade : db.ProjectionMade)
    {p : PacketPathRow → Prop} [DecidablePred p]
    (hcomplete : ∀ edge ∈ db.joinedEdges, p (pathRow edge) →
      ∃ row ∈ db.packetPaths, row.edgeID = edge.id) (newestFirst : Bool)
    (cursor : Option HistoryCursor) :
    selectRows newestFirst rowCursor cursor p db.packetPaths =
      (selectRows newestFirst edgeCursor cursor (fun edge => p (pathRow edge))
        db.joinedEdges).map pathRow := by
  have hcursor : ∀ edge, rowCursor (pathRow edge) = edgeCursor edge :=
    fun edge => (rowOf_insertPublicPacketPath edge).cursor
  have hid : ∀ edge, (pathRow edge).edgeID = edge.id :=
    fun edge => congrArg HistoryCursor.id (hcursor edge)
  have hsorted : (selectRows newestFirst rowCursor cursor p db.packetPaths).Pairwise fun a b =>
      HistoryCursor.Before newestFirst (rowCursor a) (rowCursor b) :=
    Store.pairwise_selectRows (fun _ _ => rfl) hmade.nodup cursor p
  refine eq_of_mem_iff hsorted ?_ fun row => ?_
  · refine List.pairwise_map.mpr ((Store.pairwise_selectRows (fun _ _ => rfl)
      (Database.map_id_joinedEdges ▸ hids) cursor _).imp ?_)
    intro a b hab
    rwa [hcursor, hcursor]
  · rw [mem_selectRows, List.mem_map]
    constructor
    · rintro ⟨hrow, hp, hbeyond⟩
      obtain ⟨edge, hedge, rfl⟩ := hmade.rows row hrow
      rw [hcursor] at hbeyond
      exact ⟨edge, mem_selectRows.mpr ⟨hedge, hp, hbeyond⟩, rfl⟩
    · rintro ⟨edge, hselected, rfl⟩
      obtain ⟨hedge, hp, hbeyond⟩ := mem_selectRows.mp hselected
      obtain ⟨row, hrow, heq⟩ := hcomplete edge hedge hp
      obtain ⟨other, hother, rfl⟩ := hmade.rows row hrow
      rw [hid] at heq
      rw [Database.eq_of_id_eq hids hother hedge heq] at hrow
      exact ⟨hrow, hp, (hcursor edge).symm ▸ hbeyond⟩

/-- What `PublicPacketPaths` returns, in terms of edges. -/
theorem publicPacketPaths_eq (hids : (db.edges.map EdgeEvent.id).Nodup) (hmade : db.ProjectionMade)
    {now : Int}
    {query : PublicPacketPathQuery}
    (hcomplete : ∀ edge ∈ db.joinedEdges, packetPathCondition now query (pathRow edge) →
      ∃ row ∈ db.packetPaths, row.edgeID = edge.id) {edges : List EdgeEvent}
    (hedges : edges = rowsBeyond (HistoryCursor.Before query.newestFirst) edgeCursor query.cursor
      (selectRows query.newestFirst edgeCursor none
        (fun edge => packetPathCondition now query (pathRow edge)) db.joinedEdges)) :
    db.publicPacketPaths now query =
      ((edges.take (packetPathLimit query.limit)).map fun edge =>
        scanPublicPacketPathProjection (pathRow edge),
      if packetPathLimit query.limit < edges.length then
        (edges.take (packetPathLimit query.limit)).getLast?.map edgeCursor else none) := by
  have hcursor : rowCursor ∘ pathRow = edgeCursor :=
    funext fun edge => (rowOf_insertPublicPacketPath edge).cursor
  unfold publicPacketPaths
  rw [selectRows_packetPaths hids hmade hcomplete, selectRows_eq, ← hedges]
  dsimp only
  generalize packetPathLimit query.limit = n
  rw [List.take_take, Nat.min_eq_left (Nat.le_succ n), ← List.map_take, List.map_map,
    List.getLast?_map, Option.map_map, hcursor]
  refine congrArg _ (if_congr ?_ rfl rfl)
  rw [lt_length_take_succ, List.length_map]

end PathDatabase

end Projection

end CartoLive.Store
