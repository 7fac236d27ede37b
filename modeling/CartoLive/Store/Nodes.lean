import CartoLive.Lib.TSys
import CartoLive.Lib.Tally
import CartoLive.Live.Display
import CartoLive.Meshcore.Decode
import CartoLive.Resolve.Resolver

/-!
# The node tables

`nodes`, `node_iatas` and `node_short_ids` of `schema.sql`, and the statements of
`nodes.go` that write them: the upserts of adverts, of status messages and of
the operator's nodes, of regions and of short identifiers. A statement that
breaks a constraint is `none`. Public keys are hexadecimal by the time they get
here, so a prefix of bytes is one of characters.
-/

namespace CartoLive.Store

open CartoLive.Go CartoLive.Lib CartoLive.Live CartoLive.Meshcore

/-! ## Tables -/

/-- A row of `nodes`. -/
structure NodeRow where
  nodeID : String
  publicKey : String
  name : String
  nodeType : Int
  role : String
  latitude : Option F64
  longitude : Option F64
  locationSource : String
  firstSeen : Int
  lastSeen : Int
  observationCount : Int
  supportsMultibyte : String
  deriving DecidableEq

/-- A row of `node_iatas`. -/
structure NodeIATARow where
  publicKey : String
  iata : String
  firstSeen : Int
  lastSeen : Int
  observationCount : Int
  deriving DecidableEq

/-- A row of `node_short_ids`. -/
structure NodeShortIDRow where
  publicKey : String
  iata : String
  hashSize : Nat
  prefixHex : String
  role : String
  updatedAt : Int
  deriving DecidableEq

structure NodeTables where
  nodes : List NodeRow
  nodeIATAs : List NodeIATARow
  nodeShortIDs : List NodeShortIDRow
  deriving DecidableEq

/-- `nodes` by its unique `public_key`. -/
def NodeRow.counting : Counting NodeRow String :=
  { key := fun n => n.publicKey, count := fun n => n.observationCount }

/-- `node_iatas` by its primary key. -/
def NodeIATARow.counting : Counting NodeIATARow (String × String) :=
  { key := fun row => (row.publicKey, row.iata), count := fun row => row.observationCount }

/-- `node_short_ids` by its primary key, with one for each row. -/
def NodeShortIDRow.counting : Counting NodeShortIDRow (String × String × Nat × String) :=
  { key := fun row => (row.publicKey, row.iata, row.hashSize, row.prefixHex), count := fun _ => 1 }

namespace NodeTables

variable [LiveEnv] (t : NodeTables)

/-! ## Upserts -/

/-- `nullableMapLatLng`. -/
def nullableMapLatLng (lat lng : Option F64) : Option F64 × Option F64 :=
  match lat, lng with
  | some lat, some lng =>
    if LiveEnv.bounds.validPoint lat lng then (some lat, some lng) else (none, none)
  | _, _ => (none, none)

omit [LiveEnv] in
/-- `INSERT INTO nodes .. ON CONFLICT(public_key) DO UPDATE`; the other constraint is the primary
key. -/
def upsertNode (row : NodeRow) (update : NodeRow → NodeRow) : Option NodeTables :=
  if row.publicKey ∉ t.nodes.map NodeRow.publicKey ∧ row.nodeID ∈ t.nodes.map NodeRow.nodeID then
    none
  else some { t with nodes := NodeRow.counting.bump row.publicKey update row t.nodes }

/-- What an advert and a status message do to a known node. -/
def mergeNode (excluded n : NodeRow) : NodeRow :=
  { n with
    name := if excluded.name ≠ "" then excluded.name else n.name
    nodeType := if excluded.nodeType ≠ 0 then excluded.nodeType else n.nodeType
    role := if excluded.role ≠ "unknown" then excluded.role else n.role
    latitude := excluded.latitude.or n.latitude
    longitude := excluded.longitude.or n.longitude
    locationSource :=
      if excluded.locationSource ≠ "" then excluded.locationSource else n.locationSource
    lastSeen := excluded.lastSeen
    observationCount := n.observationCount + 1 }

/-- The first statement of `UpsertAdvertNode`. -/
def upsertAdvert (nodeID : String) (advert : Advert) (heardAt : Int) : Option NodeTables :=
  let position := nullableMapLatLng advert.latitude advert.longitude
  let row : NodeRow :=
    { nodeID, publicKey := advert.publicKey, name := advert.name, nodeType := advert.nodeType
      role := advert.role, latitude := position.1, longitude := position.2
      locationSource := advert.locationSource, firstSeen := heardAt, lastSeen := heardAt
      observationCount := 1, supportsMultibyte := "known" }
  t.upsertNode row fun n => { mergeNode row n with supportsMultibyte := row.supportsMultibyte }

/-- The arguments of `upsertStatusNode`, with the role that `observerRole` found. -/
structure StatusNode where
  publisherPK : String
  iata : String
  heardAt : Int
  name : String
  role : String
  nodeType : Int
  lat : Option F64
  lng : Option F64
  deriving DecidableEq

/-- The first statement of `upsertStatusNode`. -/
def upsertStatus (nodeID : String) (status : StatusNode) : Option NodeTables :=
  let position := nullableMapLatLng status.lat status.lng
  let row : NodeRow :=
    { nodeID, publicKey := status.publisherPK, name := status.name, nodeType := status.nodeType
      role := status.role, latitude := position.1, longitude := position.2
      locationSource := if position.1.isSome ∧ position.2.isSome then "status" else ""
      firstSeen := status.heardAt, lastSeen := status.heardAt, observationCount := 1
      supportsMultibyte := "unknown" }
  t.upsertNode row (mergeNode row)

omit [LiveEnv] in
/-- The statement of `ApplyManualNode`. -/
def upsertManual (nodeID publicKey name : String) (lat lng : F64) (source : String) (now : Int) :
    Option NodeTables :=
  let row : NodeRow :=
    { nodeID, publicKey := toUpper publicKey, name, nodeType := 2, role := "repeater"
      latitude := some lat, longitude := some lng
      locationSource := if source = "" then "operator-config" else source
      firstSeen := now, lastSeen := now, observationCount := 0, supportsMultibyte := "manual" }
  t.upsertNode row fun n =>
    { n with
      name := if row.name ≠ "" then row.name else n.name
      latitude := row.latitude
      longitude := row.longitude
      locationSource := row.locationSource
      lastSeen := row.lastSeen }

omit [LiveEnv] in
/-- `upsertNodeIATA`, with the foreign key of `node_iatas`. -/
def upsertNodeIATA (publicKey iata : String) (seenAt : Int) : Option NodeTables :=
  if publicKey ∈ t.nodes.map NodeRow.publicKey then
    let row : NodeIATARow :=
      { publicKey, iata := toUpper iata, firstSeen := seenAt, lastSeen := seenAt
        observationCount := 1 }
    some { t with
      nodeIATAs := NodeIATARow.counting.bump (publicKey, toUpper iata)
        (fun r => { r with lastSeen := seenAt, observationCount := r.observationCount + 1 }) row
        t.nodeIATAs }
  else none

/-- The row that `upsertShortIDs` writes for a size. -/
def shortIDRow (publicKey iata role : String) (seenAt : Int) (size : Nat) : NodeShortIDRow :=
  let pk := toUpper publicKey
  { publicKey := pk, iata := toUpper iata, hashSize := size
    prefixHex := String.ofList (pk.toList.take (size * 2)), role, updatedAt := seenAt }

omit [LiveEnv] in
/-- A statement of `upsertShortIDs`, with the foreign key of `node_short_ids`. -/
def upsertShortID (row : NodeShortIDRow) : Option NodeTables :=
  if row.publicKey ∈ t.nodes.map NodeRow.publicKey then
    some { t with
      nodeShortIDs := NodeShortIDRow.counting.bump (NodeShortIDRow.counting.key row)
        (fun r => { r with role := row.role, updatedAt := row.updatedAt }) row t.nodeShortIDs }
  else none

/-! ## Reads -/

omit [LiveEnv] in
/-- A row as `scanNodes` returns it. -/
def scanNode (n : NodeRow) : Node :=
  { nodeID := n.nodeID, publicKey := n.publicKey, name := n.name, role := n.role
    latitude := n.latitude, longitude := n.longitude, lastSeen := n.lastSeen
    firstSeen := n.firstSeen
    iatasHeardIn :=
      ((t.nodeIATAs.filter fun r => r.publicKey = n.publicKey).map (·.iata)).insertionSort (· ≤ ·)
    observationCount := n.observationCount }

omit [LiveEnv] in
/-- `NodeByPublicKey`. -/
def nodeByPublicKey (publicKey : String) : Option Node :=
  (t.nodes.find? fun n => n.publicKey = toUpper publicKey).map t.scanNode

omit [LiveEnv] in
/-- What `CandidatesByPrefix` reads. -/
def candidateTables : Resolve.CandidateTables :=
  { nodes := t.nodes.map t.scanNode
    shortIDs := t.nodeShortIDs.map fun si =>
      { publicKey := si.publicKey, iata := si.iata, hashSize := si.hashSize
        prefixHex := si.prefixHex } }

end NodeTables

/-! ## Statements -/

/-- What is executed on the node tables. -/
inductive NodeStatement
  | advert (nodeID : String) (advert : Advert) (heardAt : Int)
  | status (nodeID : String) (status : NodeTables.StatusNode)
  | manual (nodeID publicKey name : String) (lat lng : F64) (source : String) (now : Int)
  | nodeIATA (publicKey iata : String) (seenAt : Int)
  | shortID (row : NodeShortIDRow)
  /-- `NodeByPublicKey`; no row is an error. -/
  | readNode (publicKey : String)
  deriving DecidableEq

variable [LiveEnv]

/-- The tables after a statement, unless it breaks a constraint or finds no row. -/
def NodeTables.exec : NodeStatement → NodeTables → Option NodeTables
  | .advert nodeID advert heardAt, t => t.upsertAdvert nodeID advert heardAt
  | .status nodeID status, t => t.upsertStatus nodeID status
  | .manual nodeID publicKey name lat lng source now, t =>
    t.upsertManual nodeID publicKey name lat lng source now
  | .nodeIATA publicKey iata seenAt, t => t.upsertNodeIATA publicKey iata seenAt
  | .shortID row, t => t.upsertShortID row
  | .readNode publicKey, t => (t.nodeByPublicKey publicKey).map fun _ => t

/-- `upsertShortIDs`: sizes that are longer than the key are skipped. -/
def shortIDStatements (publicKey iata role : String) (seenAt : Int) : List NodeStatement :=
  ([1, 2, 3].filter fun size => size * 2 ≤ (toUpper publicKey).toList.length).map fun size =>
    .shortID (NodeTables.shortIDRow publicKey iata role seenAt size)

/-- `UpsertAdvertNode`. -/
def upsertAdvertNode (nodeID iata : String) (advert : Advert) (heardAt : Int) :
    List NodeStatement :=
  [.advert nodeID advert heardAt, .nodeIATA advert.publicKey iata heardAt] ++
    shortIDStatements advert.publicKey iata advert.role heardAt ++ [.readNode advert.publicKey]

/-- `upsertStatusNode`. -/
def upsertStatusNode (nodeID : String) (status : NodeTables.StatusNode) : List NodeStatement :=
  [.status nodeID status, .nodeIATA status.publisherPK status.iata status.heardAt] ++
    shortIDStatements status.publisherPK status.iata status.role status.heardAt

/-- `ApplyManualNode`; a position off the map is refused. -/
def applyManualNode (nodeID publicKey name : String) (lat lng : F64) (source : String) (now : Int) :
    List NodeStatement :=
  if LiveEnv.bounds.validPoint lat lng then [.manual nodeID publicKey name lat lng source now]
  else []

/-- A call that writes the node tables. -/
inductive NodeMutation
  | advert (nodeID iata : String) (advert : Advert) (heardAt : Int)
  | status (nodeID : String) (status : NodeTables.StatusNode)
  | manual (nodeID publicKey name : String) (lat lng : F64) (source : String) (now : Int)

def NodeMutation.statements : NodeMutation → List NodeStatement
  | .advert nodeID iata received heardAt => upsertAdvertNode nodeID iata received heardAt
  | .status nodeID received => upsertStatusNode nodeID received
  | .manual nodeID publicKey name lat lng source now =>
    applyManualNode nodeID publicKey name lat lng source now

/-- The node tables, with the statements of any calls in any order; a step is a statement of a call
by its number. -/
def nodeStore : TSys NodeTables (NodeMutation × Nat) where
  init t := t = { nodes := [], nodeIATAs := [], nodeShortIDs := [] }
  step t a := a.1.statements[a.2]?.bind fun stmt => NodeTables.exec stmt t

end CartoLive.Store
