import CartoLive.Lib.Statements
import CartoLive.Mqtt.Extract
import CartoLive.Store.Ingest
import CartoLive.Store.Nodes

/-!
# Observers and what they report

`UpsertObserver` of `nodes.go` with what it takes out of a status payload, and the
writes that record when a node, a node in a region and a packet were heard: it,
`UpsertAdvertNode` and `UpsertPacketAndObservation`. The syntax of finite numbers
is a parameter, and the column `status_json` of `observers` is left out.
-/

namespace CartoLive.Store

open CartoLive.Go CartoLive.Lib CartoLive.Live CartoLive.Meshcore CartoLive.Mqtt

/-! ## Status payloads -/

/-- `firstPayloadString`. -/
def firstPayloadString (payload : String → Option JsonValue) : List String → String
  | [] => ""
  | key :: keys =>
    match payload key with
    | some (.text s) => trimSpace s
    | _ => firstPayloadString payload keys

/-- `strings.Index`. -/
def stringsIndex (text word : List Char) : Option Nat :=
  (List.range (text.length + 1)).find? fun i => word.isPrefixOf (text.drop i)

def roleSeparator (c : Char) : Bool := c = ' ' || c = '_' || c = '-'

/-- `roleWordMatch`; only the first place of a word counts. -/
def roleWordMatch (text : List Char) (words : List String) : Bool :=
  words.any fun word =>
    match stringsIndex text word.toList with
    | none => false
    | some idx =>
      (idx = 0 || (text[idx - 1]?).any roleSeparator) &&
        (text[idx + word.toList.length]?).all roleSeparator

/-- `observerRole`: the role and the type of a node. -/
def observerRole (payload : String → Option JsonValue) (name : String) : String × Int :=
  let text := (toLower (name ++ " " ++
    firstPayloadString payload ["role"] ++ " " ++
    firstPayloadString payload ["node_type"] ++ " " ++
    firstPayloadString payload ["type"] ++ " " ++
    firstPayloadString payload ["model"] ++ " " ++
    firstPayloadString payload ["client_version"] ++ " " ++
    firstPayloadString payload ["firmware_version"])).toList
  if roleWordMatch text ["repeater", "pymc_repeater", "pymc-repeater"] then ("repeater", 2)
  else if roleWordMatch text ["room_server", "room-server", "room server"] then ("room_server", 3)
  else if roleWordMatch text ["companion", "chat node"] then ("companion", 1)
  else if roleWordMatch text ["sensor"] then ("sensor", 4)
  else ("unknown", 0)

/-- `StatusLatLng`. -/
def statusLatLng (parseNumber : String → Option ℚ) (payload : String → Option JsonValue) :
    Option F64 × Option F64 :=
  match firstNumber parseNumber payload ["latitude", "lat", "gps_latitude"],
    firstNumber parseNumber payload ["longitude", "lon", "lng", "gps_longitude"] with
  | some lat, some lng =>
    if lat.lt (.fin (-90)) || (F64.fin 90).lt lat || lng.lt (.fin (-180)) || (F64.fin 180).lt lng then
      (none, none)
    else (some lat, some lng)
  | _, _ => (none, none)

/-! ## `UpsertObserver` -/

/-- A message of an observer about itself. -/
structure ObserverMessage where
  publisherPK : String
  iata : String
  subtopic : String
  observerName : String
  payload : List (String × JsonValue)
  rawJSON : String
  heardAt : Int
  deriving DecidableEq

/-- A row of `observer_status`. -/
structure ObserverStatusRow where
  publicKey : String
  iata : String
  statusJSON : String
  receivedAt : Int
  deriving DecidableEq

/-- A write of what a message reports. -/
inductive HeardWrite
  /-- `UpsertAdvertNode`. -/
  | advert (nodeID iata : String) (advert : Advert) (heardAt : Int)
  /-- `UpsertObserver`. -/
  | observer (nodeID : String) (msg : ObserverMessage)
  /-- `UpsertPacketAndObservation`. -/
  | packet (parsed : ParsedPacket) (seenAt : Int) (insert : ObservationInsert)

/-- The tables that messages write. -/
structure HeardDatabase where
  ingest : IngestDatabase
  tables : NodeTables
  observerStatus : List ObserverStatusRow

namespace HeardDatabase

/-- New node tables, from which the nodes are read. -/
def withTables (db : HeardDatabase) (tables : NodeTables) : HeardDatabase :=
  { db with tables, ingest := { db.ingest with nodes := tables.nodes.map tables.scanNode } }

/-- `INSERT INTO observers .. ON CONFLICT(public_key, iata) DO UPDATE`. -/
def upsertObserverRow (observers : List Observer) (msg : ObserverMessage) (name : String)
    (position : Option F64 × Option F64) : List Observer :=
  if observers.any fun row => row.publicKey = msg.publisherPK ∧ row.iata = msg.iata then
    observers.map fun row =>
      if row.publicKey = msg.publisherPK ∧ row.iata = msg.iata then
        { row with
          name := if name ≠ "" then name else row.name
          latitude := position.1.or row.latitude
          longitude := position.2.or row.longitude
          lastSeen := msg.heardAt
          packetCount := row.packetCount + 1 }
      else row
  else
    observers ++ [{
      publicKey := msg.publisherPK, iata := msg.iata, name, latitude := position.1
      longitude := position.2, lastSeen := msg.heardAt, packetCount := 1 }]

variable [LiveEnv] (parseNumber : String → Option ℚ)

/-- `UpsertObserver`; `nodeID` is the identifier that a new node gets. -/
def upsertObserver (db : HeardDatabase) (nodeID : String) (msg : ObserverMessage) :
    Option HeardDatabase :=
  let payload := fun key => msg.payload.lookup key
  let (lat, lng) := statusLatLng parseNumber payload
  let name :=
    if msg.observerName = "" then firstPayloadString payload ["origin", "name", "node_name"]
    else msg.observerName
  let observers := upsertObserverRow db.ingest.observers msg name
    (NodeTables.nullableMapLatLng lat lng)
  let db := { db with ingest := { db.ingest with observers } }
  if msg.subtopic = "status" then
    let row : ObserverStatusRow :=
      { publicKey := msg.publisherPK, iata := msg.iata, statusJSON := msg.rawJSON
        receivedAt := msg.heardAt }
    let (role, nodeType) := observerRole payload name
    let status : NodeTables.StatusNode :=
      { publisherPK := msg.publisherPK, iata := msg.iata, heardAt := msg.heardAt, name, role
        nodeType, lat, lng }
    let (tables, done) := transaction NodeTables.exec (upsertStatusNode nodeID status) none db.tables
    if done then some ({ db with observerStatus := db.observerStatus ++ [row] }.withTables tables)
    else none
  else some db

/-! ## Messages -/

/-- The database after a write that returns no error. -/
def write (db : HeardDatabase) : HeardWrite → Option HeardDatabase
  | .advert nodeID iata received heardAt =>
    let (tables, done) := autocommit NodeTables.exec (upsertAdvertNode nodeID iata received heardAt)
      none db.tables
    if done then some (db.withTables tables) else none
  | .observer nodeID msg => db.upsertObserver parseNumber nodeID msg
  | .packet parsed seenAt insert =>
    some { db with ingest := (db.ingest.upsertPacketAndObservation parsed seenAt insert).1 }

omit [LiveEnv] in
/-- A database that has heard nothing. -/
def empty : HeardDatabase :=
  { ingest := { emptyDatabase with packets := [], ingestIDs := [], observationSequence := 0 }
    tables := { nodes := [], nodeIATAs := [], nodeShortIDs := [] }
    observerStatus := [] }

/-- The database after writes that return no error, one after the other. -/
def writes (messages : List HeardWrite) : Option HeardDatabase :=
  messages.foldlM (write parseNumber) empty

end HeardDatabase

end CartoLive.Store
