import CartoLive.Lib.Columns
import CartoLive.Store.PacketPaths

/-!
# Tables as SQLite has them

The tables of `schema.sql` by name, with their columns, and how the queries of
the packet paths scan their rows. A JSON column appears as the value it encodes.
A column name is looked up in any case of letters; all names are lower case here.
-/

namespace CartoLive.Store

open CartoLive.Lib CartoLive.Go CartoLive.Live

/-! ## Values -/

inductive SqlValue
  | null
  | integer (n : Int)
  | real (x : F64)
  | text (s : String)
  | texts (values : List String)
  | routeSegments (segments : List PublicRouteSegment)
  | edgeSegments (segments : List EdgeSegment)
  | anchor (anchor : MessageAnchor)
  deriving DecidableEq

namespace SqlValue

def int : SqlValue → Int
  | integer n => n
  | _ => 0

def string : SqlValue → String
  | text s => s
  | _ => ""

/-- A JSON list of strings; the text `[]` is the empty list. -/
def strings : SqlValue → List String
  | texts values => values
  | _ => []

def publicSegments : SqlValue → List PublicRouteSegment
  | routeSegments segments => segments
  | _ => []

def segments : SqlValue → List EdgeSegment
  | edgeSegments segments => segments
  | _ => []

/-- The empty text is no anchor. -/
def messageAnchor : SqlValue → Option MessageAnchor
  | anchor value => some value
  | _ => none

end SqlValue

/-- A row, by column. -/
abbrev SqlRow := String → SqlValue

abbrev SqlTable := Table String SqlValue

/-- The tables there are. -/
abbrev SqlTables := String → Option SqlTable

/-- A database file: its tables and `PRAGMA user_version`. -/
structure SqlDatabase where
  tables : SqlTables
  userVersion : Int

/-! ## The schema -/

/-- The tables of `schema.sql`. -/
def schema : List (String × List String) :=
  [("schema_migrations", ["version", "applied_at_ms"]),
    ("packets",
      ["packet_hash", "raw_hex", "route_type", "route_type_name", "payload_type",
        "payload_type_name", "payload_version", "hash_size", "hop_count", "path_hex", "payload_hex",
        "invalid_for_map", "invalid_reason", "first_seen_ms", "last_seen_ms", "seen_count"]),
    ("packet_observations",
      ["id", "ingest_id", "packet_hash", "topic", "iata", "observer_public_key", "observer_name",
        "raw_json", "heard_at_ms", "rssi", "snr", "score", "route_type", "route_type_name",
        "payload_type", "payload_type_name", "payload_version", "hash_size", "hop_count",
        "path_hex", "payload_hex", "resolution_status", "resolution_reason", "invalid_for_map",
        "summary", "message_sender", "message_text", "created_at_ms"]),
    ("nodes",
      ["node_id", "public_key", "name", "node_type", "role", "latitude", "longitude",
        "location_source", "first_seen_ms", "last_seen_ms", "observation_count",
        "supports_multibyte"]),
    ("node_iatas", ["public_key", "iata", "first_seen_ms", "last_seen_ms", "observation_count"]),
    ("node_short_ids", ["public_key", "iata", "hash_size", "prefix_hex", "role", "updated_at_ms"]),
    ("observers",
      ["public_key", "iata", "name", "latitude", "longitude", "last_seen_ms", "packet_count",
        "status_json"]),
    ("observer_status", ["id", "public_key", "iata", "status_json", "received_at_ms"]),
    ("live_edge_events",
      ["id", "ingest_id", "packet_hash", "observation_id", "payload_type", "payload_type_name",
        "message_sender", "message_text", "message_anchor_json", "heard_at_ms", "segments_json",
        "render_reason", "created_at_ms"]),
    ("public_packet_paths",
      ["edge_id", "observation_id", "mappable", "heard_at_ms", "iata", "region",
        "payload_type_name", "message_sender", "message_text", "hop_count", "segment_count",
        "distance_km", "route_ids_json", "endpoint_labels_json", "segments_json", "search_text",
        "created_at_ms"]),
    ("public_route_summaries",
      ["route_id", "from_node_id", "from_label", "from_lat", "from_lng", "from_path_hash3",
        "to_node_id", "to_label", "to_lat", "to_lng", "to_path_hash3", "distance_km",
        "packet_count", "last_heard_ms", "payload_type_names_json", "updated_at_ms"]),
    ("public_route_summary_edges", ["edge_id", "heard_at_ms"]),
    ("public_events",
      ["seq", "dedupe_key", "event_type", "occurred_at_ms", "received_at_ms", "region", "iata",
        "payload_type_name", "message_flag", "route_ids_json", "node_ids_json", "public_json"]),
    ("public_coverage_cells",
      ["id", "source", "region", "min_lat", "min_lng", "max_lat", "max_lng", "intensity",
        "sample_count", "age_bucket", "updated_at_ms", "attribution", "precision_bucket"]),
    ("solar_snapshots", ["id", "fetched_at_ms", "kp_index", "solar_flux_sfu", "geomag_activity"]),
    ("propagation_weather_snapshots",
      ["id", "fetched_at_ms", "sample_time_ms", "source", "model", "latitude", "longitude",
        "temperature_c", "dew_point_c", "relative_humidity_pct", "pressure_hpa", "cloud_cover_pct",
        "visibility_m", "wind_speed_kmh", "wind_direction_deg", "temperature_950hpa_c",
        "dew_point_950hpa_c", "relative_humidity_950hpa", "inversion_proxy"]),
    ("propagation_events",
      ["id", "public_id", "edge_id", "at_ms", "region", "classification", "confidence", "score",
        "distance_km", "route_ids_json", "endpoint_labels_json", "segments_json", "reasons_json",
        "weather_json", "solar_json", "replay_from_ms", "replay_to_ms", "created_at_ms"])]

/-- The `CREATE UNIQUE INDEX` statements of `schema.sql`: a table and a column
whose values differ unless they are empty. -/
def uniqueIndexes : List (String × String) :=
  [("packet_observations", "ingest_id"), ("live_edge_events", "ingest_id"),
    ("public_events", "dedupe_key")]

/-- What a unique index wants of the rows. -/
def UniqueValues (rows : List SqlRow) (column : String) : Prop :=
  ((rows.map fun row => row column).filter fun value => value ≠ .text "").Nodup

instance (rows : List SqlRow) (column : String) : Decidable (UniqueValues rows column) := by
  unfold UniqueValues
  infer_instance

/-! ## Scanning rows -/

/-- The columns that a scan of `packet_observations` reads here. -/
def observationColumns : List String :=
  ["id", "packet_hash", "payload_type_name", "route_type_name", "observer_public_key", "iata",
    "heard_at_ms", "hop_count", "resolution_status", "message_sender", "message_text",
    "invalid_for_map"]

def scanObservation (row : SqlRow) : PacketObservation :=
  { id := (row "id").int
    packetHash := (row "packet_hash").string
    payloadTypeName := (row "payload_type_name").string
    routeTypeName := (row "route_type_name").string
    observerPublicKey := (row "observer_public_key").string
    iata := (row "iata").string
    heardAt := (row "heard_at_ms").int
    hopCount := (row "hop_count").int
    resolutionStatus := (row "resolution_status").string
    messageSender := (row "message_sender").string
    messageText := (row "message_text").string
    invalidForMap := (row "invalid_for_map").int ≠ 0 }

/-- The columns that a scan of `live_edge_events` reads. -/
def edgeColumns : List String :=
  ["id", "packet_hash", "observation_id", "payload_type_name", "message_sender", "message_text",
    "message_anchor_json", "heard_at_ms", "segments_json"]

/-- `scanPublicPacketPathBackfillEdge`, before the join with the observation. -/
def scanEdge (row : SqlRow) : EdgeEvent :=
  { ingestID := ""
    id := (row "id").int
    packetHash := (row "packet_hash").string
    observationID := (row "observation_id").int
    iata := ""
    payloadTypeName := (row "payload_type_name").string
    messageSender := (row "message_sender").string
    messageText := (row "message_text").string
    messageAnchor := (row "message_anchor_json").messageAnchor
    heardAt := (row "heard_at_ms").int
    segments := (row "segments_json").segments }

/-- The columns of `public_packet_paths` that are in the model. -/
def packetPathColumns : List String :=
  ["edge_id", "observation_id", "mappable", "heard_at_ms", "iata", "region", "payload_type_name",
    "message_sender", "message_text", "hop_count", "segment_count", "route_ids_json",
    "endpoint_labels_json", "segments_json"]

def scanPacketPath (row : SqlRow) : PacketPathRow :=
  { edgeID := (row "edge_id").int
    observationID := (row "observation_id").int
    mappable := (row "mappable").int = 1
    heardAt := (row "heard_at_ms").int
    iata := (row "iata").string
    region := (row "region").string
    payloadTypeName := (row "payload_type_name").string
    messageSender := (row "message_sender").string
    messageText := (row "message_text").string
    hopCount := (row "hop_count").int
    segmentCount := (row "segment_count").int
    routeIDs := (row "route_ids_json").strings
    endpointLabels := (row "endpoint_labels_json").strings
    segments := (row "segments_json").publicSegments }

/-- The rows that the packet paths and their backfill read, by table. -/
def scanTables (rows : String → List SqlRow) : PathDatabase :=
  { emptyDatabase with
    observations := (rows "packet_observations").map scanObservation
    edges := (rows "live_edge_events").map scanEdge
    packetPaths := (rows "public_packet_paths").map scanPacketPath }

/-- The rows of a table; a table that is missing has none. -/
def SqlTables.rows (tables : SqlTables) (name : String) : List SqlRow :=
  ((tables name).map Table.rows).getD []

section Congr

variable {row row' : SqlRow}

theorem scanObservation_congr (h : ∀ c ∈ observationColumns, row c = row' c) :
    scanObservation row = scanObservation row' := by
  simp only [observationColumns, List.forall_mem_cons] at h
  simp only [scanObservation, h]

theorem scanEdge_congr (h : ∀ c ∈ edgeColumns, row c = row' c) : scanEdge row = scanEdge row' := by
  simp only [edgeColumns, List.forall_mem_cons] at h
  simp only [scanEdge, h]

theorem scanPacketPath_congr (h : ∀ c ∈ packetPathColumns, row c = row' c) :
    scanPacketPath row = scanPacketPath row' := by
  simp only [packetPathColumns, List.forall_mem_cons] at h
  simp only [scanPacketPath, h]

end Congr

end CartoLive.Store
