import CartoLive.Store.LiveState
import CartoLive.Store.PacketPaths

/-!
# The rows of edges

`live_edge_events` with its two JSON columns, as `insertEdgeEventCoreTx` writes
them (`EncodeSegments`, `EncodeMessageAnchor`) and as `RecentEdgeEvents` and the
backfill read them. `json.Marshal` fails on a double that is not finite and
otherwise round-trips: a JSON text is the value that it stands for, and the
empty text stands for none.
-/

namespace CartoLive.Store

open CartoLive.Go CartoLive.Live

/-! ## Edges with signals -/

/-- An `EdgeSegment` with the signal that it was heard with. -/
structure SignalSegment extends EdgeSegment where
  snr : Option F64
  rssi : Option F64
  deriving DecidableEq

/-- An `EdgeEvent` as it is built: without the identifiers that it is stored under. -/
structure BuiltEdge where
  packetHash : String
  observationID : Int
  iata : String
  payloadType : Nat
  payloadTypeName : String
  messageSender : String
  messageText : String
  messageAnchor : Option MessageAnchor
  heardAt : Int
  segments : List SignalSegment
  renderReason : String
  deriving DecidableEq

/-- An `EdgeEvent`. -/
structure SignalEdge extends BuiltEdge where
  ingestID : String
  id : Int
  deriving DecidableEq

/-! ## JSON columns -/

/-- The text of a JSON column, by the value that it stands for; the empty text is `none`. -/
abbrev JsonText (α : Type) : Type := Option α

/-- What `json.Marshal` demands of a double. -/
def finite (x : F64) : Bool := !x.isNaN && !x.isInf

def finiteEndpoint (endpoint : EdgeEndpoint) : Bool := finite endpoint.lat && finite endpoint.lng

def finiteSegment (segment : SignalSegment) : Bool :=
  finiteEndpoint segment.source && finiteEndpoint segment.target && finite segment.distanceKM &&
    segment.snr.all finite && segment.rssi.all finite

/-- `EncodeSegments`: the error of `json.Marshal` is dropped. -/
def encodeSegments (segments : List SignalSegment) : JsonText (List SignalSegment) :=
  if segments.all finiteSegment then some segments else none

/-- `json.Unmarshal` into `Segments`, which its error leaves empty. -/
def decodeSegments (segmentsJSON : JsonText (List SignalSegment)) : List SignalSegment :=
  segmentsJSON.getD []

/-- `EncodeMessageAnchor`. -/
def encodeMessageAnchor (anchor : Option MessageAnchor) : JsonText MessageAnchor :=
  anchor.filter fun anchor => finiteEndpoint anchor.endpoint

/-- The readers' `MessageAnchor`. -/
def decodeMessageAnchor (messageAnchorJSON : JsonText MessageAnchor) : Option MessageAnchor :=
  messageAnchorJSON

/-! ## The table -/

/-- A row of `live_edge_events`. -/
structure EdgeRow where
  id : Int
  ingestID : String
  packetHash : String
  observationID : Int
  payloadType : Nat
  payloadTypeName : String
  messageSender : String
  messageText : String
  messageAnchorJSON : JsonText MessageAnchor
  heardAt : Int
  segmentsJSON : JsonText (List SignalSegment)
  renderReason : String
  deriving DecidableEq

/-- `live_edge_events`; identifiers are given in ascending order. -/
structure EdgeTable where
  rows : List EdgeRow
  sequence : Int
  id_le : ∀ row ∈ rows, row.id ≤ sequence

namespace EdgeTable

/-- The row that an edge is stored as. -/
def rowOf (id : Int) (edge : SignalEdge) : EdgeRow :=
  { id
    ingestID := edge.ingestID
    packetHash := edge.packetHash
    observationID := edge.observationID
    payloadType := edge.payloadType
    payloadTypeName := edge.payloadTypeName
    messageSender := edge.messageSender
    messageText := edge.messageText
    messageAnchorJSON := encodeMessageAnchor edge.messageAnchor
    heardAt := edge.heardAt
    segmentsJSON := encodeSegments edge.segments
    renderReason := edge.renderReason }

/-- The table with another row. -/
def insert (t : EdgeTable) (edge : SignalEdge) : EdgeTable where
  rows := t.rows ++ [rowOf (t.sequence + 1) edge]
  sequence := t.sequence + 1
  id_le row hrow := by
    rcases List.mem_append.mp hrow with hold | hnew
    · have := t.id_le row hold
      omega
    · rw [List.mem_singleton.mp hnew]
      exact Int.le_refl _

/-- `insertEdgeEventCoreTx` without the observation's resolution: the table, the edge that is
broadcast and whether it was stored. -/
def insertEdgeEventCoreTx (t : EdgeTable) (edge : SignalEdge) : EdgeTable × SignalEdge × Bool :=
  match t.rows.find? fun row => row.ingestID = edge.ingestID ∧ row.ingestID ≠ "" with
  | some row => (t, { edge with id := row.id }, false)
  | none => (t.insert edge, { edge with id := t.sequence + 1 }, true)

/-- What both readers make of a row; `iataOf` is the joined region of an observation. -/
def scanRow (iataOf : Int → String) (row : EdgeRow) : SignalEdge :=
  { id := row.id
    ingestID := ""
    packetHash := row.packetHash
    observationID := row.observationID
    iata := iataOf row.observationID
    payloadType := row.payloadType
    payloadTypeName := row.payloadTypeName
    messageSender := row.messageSender
    messageText := row.messageText
    messageAnchor := decodeMessageAnchor row.messageAnchorJSON
    heardAt := row.heardAt
    segments := decodeSegments row.segmentsJSON
    renderReason := row.renderReason }

/-- The latest heard first. -/
def heardBefore (a b : EdgeRow) : Prop :=
  if a.heardAt = b.heardAt then b.id ≤ a.id else b.heardAt < a.heardAt

instance : DecidableRel heardBefore := fun a b => by
  unfold heardBefore
  infer_instance

/-- `RecentEdgeEvents`. -/
def recentEdgeEvents (t : EdgeTable) (iataOf : Int → String) (limit now : Int) : List SignalEdge :=
  let limit := if limit ≤ 0 ∨ 2000 < limit then 200 else limit.toNat
  (((t.rows.filter fun row => row.heardAt ≤ now + Database.maxFutureEdgeSkew).insertionSort
    heardBefore).take limit).map (scanRow iataOf)

/-- `publicPacketPathMissingEdges`; `hasPath` tells the edges that have a row of their own. -/
def missingEdges (t : EdgeTable) (iataOf : Int → String) (hasPath : Int → Bool)
    (since until_ : Int) (limit : Nat) (now : Int) : List SignalEdge :=
  (((t.rows.filter fun row => decide (since ≤ row.heardAt) &&
    decide (row.heardAt ≤ boundedHistoryTo now until_) && !hasPath row.id).insertionSort
      heardBefore).take limit).map (scanRow iataOf)

end EdgeTable

end CartoLive.Store
