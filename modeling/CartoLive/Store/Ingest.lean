import CartoLive.Lib.Statements
import CartoLive.Store.LiveState

/-!
# The writes of one message

`UpsertPacketAndObservation` (`packets.go`) with the tables that only it writes,
and what makes it, `CommitLiveEdge` and `CommitNonEdgeActivity` harmless to
retry: each looks its message up by a key that its first commit has stored.

The resolution reason and the columns of `packet_observations` that no modelled
query reads are left out. `ingestIDs` is the index
`idx_observations_ingest_id`: the identifier of the message of each observation.
-/

namespace CartoLive.Store

open CartoLive.Lib CartoLive.Go CartoLive.Live

/-! ## Tables -/

structure ParsedPacket where
  packetHash : String
  rawHex : String
  routeType : Int
  routeTypeName : String
  payloadType : Int
  payloadTypeName : String
  payloadVersion : Int
  hashSize : Int
  hopCount : Int
  pathBytes : List UInt8
  payload : List UInt8
  invalidForMap : Bool
  invalidReason : String
  deriving DecidableEq

/-- A row of `packets`, whose other columns print the packet. -/
structure Packet where
  parsed : ParsedPacket
  firstSeen : Int
  lastSeen : Int
  seenCount : Int
  deriving DecidableEq

structure ObservationInsert where
  ingestID : String
  publisherPK : String
  iata : String
  observerName : String
  heardAt : Int
  parsed : ParsedPacket
  messageSender : String
  messageText : String

structure IngestDatabase extends Database where
  packets : List Packet
  ingestIDs : List (String × Int)
  observationSequence : Int

namespace IngestDatabase

/-! ## `UpsertPacketAndObservation` -/

/-- `observationByIngestIDSQL`. -/
def observationByIngestID (db : IngestDatabase) (ingestID : String) : Option Int :=
  (db.ingestIDs.find? fun row => row.1 = ingestID ∧ row.1 ≠ "").map Prod.snd

/-- `INSERT INTO packets .. ON CONFLICT(packet_hash) DO UPDATE`. -/
def upsertPacket (packets : List Packet) (parsed : ParsedPacket) (seenAt : Int) : List Packet :=
  if packets.any fun row => row.parsed.packetHash = parsed.packetHash then
    packets.map fun row =>
      if row.parsed.packetHash = parsed.packetHash then
        { row with lastSeen := seenAt, seenCount := row.seenCount + 1 }
      else row
  else packets ++ [{ parsed, firstSeen := seenAt, lastSeen := seenAt, seenCount := 1 }]

/-- `incrementObserverPacket`. -/
def incrementObserverPacket (observers : List Observer) (insert : ObservationInsert) :
    List Observer :=
  if observers.any fun row => row.publicKey = insert.publisherPK ∧ row.iata = insert.iata then
    observers.map fun row =>
      if row.publicKey = insert.publisherPK ∧ row.iata = insert.iata then
        { row with
          name := if insert.observerName ≠ "" then insert.observerName else row.name
          lastSeen := insert.heardAt
          packetCount := row.packetCount + 1 }
      else row
  else
    observers ++ [{
      publicKey := insert.publisherPK, iata := insert.iata, name := insert.observerName
      latitude := none, longitude := none, lastSeen := insert.heardAt, packetCount := 1 }]

/-- The row of `packet_observations`. -/
def observationRow (id : Int) (insert : ObservationInsert) : PacketObservation :=
  { id
    packetHash := insert.parsed.packetHash
    payloadTypeName := insert.parsed.payloadTypeName
    routeTypeName := insert.parsed.routeTypeName
    observerPublicKey := insert.publisherPK
    iata := insert.iata
    heardAt := insert.heardAt
    hopCount := insert.parsed.hopCount
    resolutionStatus := "unresolved"
    messageSender := insert.messageSender
    messageText := insert.messageText
    invalidForMap := insert.parsed.invalidForMap }

/-- `UpsertPacketAndObservation`: the identifier of the observation, and whether
the message was a duplicate. -/
def upsertPacketAndObservation (db : IngestDatabase) (parsed : ParsedPacket) (seenAt : Int)
    (insert : ObservationInsert) : IngestDatabase × Int × Bool :=
  match db.observationByIngestID insert.ingestID with
  | some existingID => (db, existingID, true)
  | none =>
    let id := db.observationSequence + 1
    ({ db with
        packets := upsertPacket db.packets parsed seenAt
        observations := db.observations ++ [observationRow id insert]
        ingestIDs := db.ingestIDs ++ [(insert.ingestID, id)]
        observationSequence := id
        observers := incrementObserverPacket db.observers insert },
      id, false)

theorem upsert_found {db : IngestDatabase} {insert : ObservationInsert} {id : Int}
    (h : db.observationByIngestID insert.ingestID = some id) (parsed : ParsedPacket)
    (seenAt : Int) : db.upsertPacketAndObservation parsed seenAt insert = (db, id, true) := by
  unfold upsertPacketAndObservation
  rw [h]

/-- After the upsert its message is known. -/
theorem observationByIngestID_upsert {insert : ObservationInsert} (hid : insert.ingestID ≠ "")
    (db : IngestDatabase) (parsed : ParsedPacket) (seenAt : Int) :
    (db.upsertPacketAndObservation parsed seenAt insert).1.observationByIngestID insert.ingestID =
      some (db.upsertPacketAndObservation parsed seenAt insert).2.1 := by
  cases hfound : db.observationByIngestID insert.ingestID with
  | some id => rw [upsert_found hfound, hfound]
  | none =>
    unfold upsertPacketAndObservation
    rw [hfound]
    unfold observationByIngestID
    dsimp only
    rw [List.find?_append, Option.map_eq_none_iff.mp hfound]
    simp [hid]

/-- `UpsertPacketAndObservation` can be retried. -/
theorem retryable_upsert {insert : ObservationInsert} (hid : insert.ingestID ≠ "")
    (parsed : ParsedPacket) (seenAt : Int) :
    Retryable (fun (_ : Unit) db => upsertPacketAndObservation db parsed seenAt insert) Prod.fst
      (fun db id => db.observationByIngestID insert.ingestID = some id) Eq where
  settles _ db := observationByIngestID_upsert hid db parsed seenAt
  again _ db id h := by
    rw [upsert_found h]
    exact ⟨rfl, rfl⟩

end IngestDatabase

namespace Database

/-! ## Commits of events -/

/-- All rows agree; the counter of `public_events` may differ. -/
structure SameTables (a b : Database) : Prop where
  tables : { a with publicEvents := b.publicEvents } = b
  rows : a.publicEvents.rows = b.publicEvents.rows

theorem SameTables.refl (db : Database) : SameTables db db := ⟨rfl, rfl⟩

theorem SameTables.trans {a b c : Database} (hab : SameTables a b) (hbc : SameTables b c) :
    SameTables a c := by
  refine ⟨?_, hab.rows.trans hbc.rows⟩
  rw [← hbc.tables, ← hab.tables]

/-- `edgeByIngestIDSQL`. -/
def edgeByIngestID (db : Database) (ingestID : String) : Option Int :=
  (db.edges.find? fun row => row.ingestID = ingestID ∧ row.ingestID ≠ "").map EdgeEvent.id

section Env

variable [LiveEnv]

/-- The public events of a commit. -/
def LiveEdgeCommitRequest.events (request : LiveEdgeCommitRequest) (edge : EdgeEvent)
    (now : Int) : List PublicEvent :=
  if request.publishPublicEvents then
    edgeEvents edge request.activityDedupeKey request.routePulseDedupeKey request.receivedAt now
  else []

/-- The dedupe keys of the events of the edge `id`. -/
def LiveEdgeCommitRequest.eventKeys (request : LiveEdgeCommitRequest) (id : Int) : List String :=
  (request.events { request.edge with id } 0).map PublicEvent.dedupeKey

theorem eventKeys_eq (request : LiveEdgeCommitRequest) (id now : Int) :
    (request.events { request.edge with id } now).map PublicEvent.dedupeKey =
      request.eventKeys id := by
  unfold LiveEdgeCommitRequest.eventKeys LiveEdgeCommitRequest.events edgeEvents
  split
  · cases publicActivityFromEdge { request.edge with id } <;>
      cases publicRoutePulseFromEdge { request.edge with id } [] <;> rfl
  · rfl

/-- Both keys of a request are usable. -/
structure LiveEdgeCommitRequest.Keyed (request : LiveEdgeCommitRequest) : Prop where
  ingestID : request.edge.ingestID ≠ ""
  activity : trimSpace request.activityDedupeKey ≠ ""
  pulse : trimSpace request.routePulseDedupeKey ≠ ""

theorem dedupeKey_ne_of_mem_events {request : LiveEdgeCommitRequest} (h : request.Keyed)
    {edge : EdgeEvent} {now : Int} {event : PublicEvent}
    (hevent : event ∈ request.events edge now) : event.dedupeKey ≠ "" := by
  unfold LiveEdgeCommitRequest.events edgeEvents at hevent
  split at hevent
  · rcases List.mem_append.mp hevent with hmem | hmem
    · obtain ⟨activity, -, rfl⟩ := Option.map_eq_some_iff.mp (Option.mem_toList.mp hmem)
      exact h.activity
    · obtain ⟨pulse, -, rfl⟩ := Option.map_eq_some_iff.mp (Option.mem_toList.mp hmem)
      exact h.pulse
  · cases hevent

end Env

/-- The edge of a commit differs from the requested one in its identifier. -/
theorem insertEdgeEventCoreTx_edge (db : Database) (edge : EdgeEvent) (status : String) :
    (db.insertEdgeEventCoreTx edge status).2 =
      { edge with id := (db.insertEdgeEventCoreTx edge status).2.id } := by
  unfold insertEdgeEventCoreTx
  split <;> rfl

theorem insertEdgeEventCoreTx_publicEvents (db : Database) (edge : EdgeEvent) (status : String) :
    (db.insertEdgeEventCoreTx edge status).1.publicEvents = db.publicEvents := by
  unfold insertEdgeEventCoreTx
  split
  · rfl
  · by_cases hstatus : status = ""
    · simp [hstatus]
    · simp [hstatus, setResolution]

theorem insertEdgeEventCoreTx_found {db : Database} {edge : EdgeEvent} {id : Int}
    (h : db.edgeByIngestID edge.ingestID = some id) (status : String) :
    db.insertEdgeEventCoreTx edge status = (db, { edge with id }) := by
  obtain ⟨row, hrow, rfl⟩ := Option.map_eq_some_iff.mp h
  exact insertEdgeEventCoreTx_repeated hrow status

theorem edgeByIngestID_insertEdgeEventCoreTx {edge : EdgeEvent} (hid : edge.ingestID ≠ "")
    (db : Database) (status : String) :
    (db.insertEdgeEventCoreTx edge status).1.edgeByIngestID edge.ingestID =
      some (db.insertEdgeEventCoreTx edge status).2.id := by
  cases hfound : db.edgeByIngestID edge.ingestID with
  | some id => rw [insertEdgeEventCoreTx_found hfound, hfound]
  | none =>
    have hnone := Option.map_eq_none_iff.mp hfound
    obtain ⟨hedge, hedges, -, -, -⟩ := insertEdgeEventCoreTx_new hnone status
    unfold edgeByIngestID
    rw [hedges, hedge, List.find?_append, hnone]
    simp [hid]

section Env

variable [LiveEnv]

/-- `CommitLiveEdge` can be retried. -/
theorem retryable_commitLiveEdge {request : LiveEdgeCommitRequest} (h : request.Keyed) :
    Retryable (fun now db => commitLiveEdge db now request)
      (fun result => (result.1.id, result.2.map fun x => x.1.seq))
      (fun db answer => db.edgeByIngestID request.edge.ingestID = some answer.1 ∧
        (request.eventKeys answer.1).map db.publicEvents.seqOf = answer.2.map some)
      SameTables where
  settles now db := by
    have hedge := insertEdgeEventCoreTx_edge db request.edge request.resolutionStatus
    have hlookup := edgeByIngestID_insertEdgeEventCoreTx h.ingestID db request.resolutionStatus
    unfold commitLiveEdge
    dsimp only
    generalize db.insertEdgeEventCoreTx request.edge request.resolutionStatus = inserted
      at hedge hlookup
    obtain ⟨db', edge⟩ := inserted
    dsimp only at hedge hlookup ⊢
    refine ⟨hlookup, ?_⟩
    have hkeys : request.eventKeys edge.id =
        (request.events edge now).map PublicEvent.dedupeKey := by
      rw [← eventKeys_eq request edge.id now, ← hedge]
    rw [hkeys, List.map_map, List.map_map]
    exact PublicEventTable.seqOf_insertPublicEventsOnce
      (fun event hevent => dedupeKey_ne_of_mem_events h hevent) db'.publicEvents now
  again now db answer hanswer := by
    obtain ⟨hedge, hseqs⟩ := hanswer
    unfold commitLiveEdge
    rw [insertEdgeEventCoreTx_found hedge]
    dsimp only
    have hevents : (request.events { request.edge with id := answer.1 } now).map
        (fun event => db.publicEvents.seqOf event.dedupeKey) = answer.2.map some := by
      rw [← hseqs, ← eventKeys_eq request answer.1 now, List.map_map]
      rfl
    obtain ⟨hrows, hout⟩ := PublicEventTable.insertPublicEventsOnce_found hevents now
    exact ⟨⟨rfl, hrows.symm⟩, Prod.ext rfl hout⟩

end Env

theorem setResolution_of_set {db : Database} {observationID : Int} {status : String}
    (h : ∀ o ∈ db.observations, o.id = observationID → o.resolutionStatus = status) :
    db.setResolution observationID status = db := by
  have hsame : (db.observations.map fun o =>
      if o.id = observationID then { o with resolutionStatus := status } else o) =
      db.observations := by
    refine (List.map_congr_left fun o ho => ?_).trans (List.map_id _)
    split
    · rename_i hid
      rw [← h o ho hid]
      rfl
    · rfl
  unfold setResolution
  rw [hsame]

/-- `CommitNonEdgeActivity` can be retried. -/
theorem retryable_commitNonEdgeActivity {event : Int → Option PublicEvent} {key : Option String}
    (hkey : ∀ now, (event now).map PublicEvent.dedupeKey = key) (hne : key ≠ some "")
    (observationID : Int) (status : String) :
    Retryable (fun now db => commitNonEdgeActivity db now observationID status (event now))
      (fun result => result.map fun x => x.1.seq)
      (fun db seqs =>
        (∀ o ∈ db.observations, o.id = observationID → o.resolutionStatus = status) ∧
          key.toList.map db.publicEvents.seqOf = seqs.map some)
      SameTables where
  settles now db := by
    constructor
    · intro o ho hid
      obtain ⟨o', -, rfl⟩ := List.mem_map.mp ho
      split
      · rfl
      · rename_i hne'
        rw [if_neg hne'] at hid
        exact absurd hid hne'
    · have hkeys : key.toList = (event now).toList.map PublicEvent.dedupeKey := by
        rw [← hkey now]
        cases event now <;> rfl
      rw [hkeys, List.map_map, List.map_map]
      refine PublicEventTable.seqOf_insertPublicEventsOnce (fun e he hempty => hne ?_) _ now
      rw [← hkey now, Option.mem_toList.mp he, Option.map_some, hempty]
  again now db seqs hanswer := by
    obtain ⟨hset, hseqs⟩ := hanswer
    unfold commitNonEdgeActivity
    rw [setResolution_of_set hset]
    dsimp only
    have hevents : (event now).toList.map (fun e => db.publicEvents.seqOf e.dedupeKey) =
        seqs.map some := by
      rw [← hseqs, ← hkey now]
      cases event now <;> rfl
    obtain ⟨hrows, hout⟩ := PublicEventTable.insertPublicEventsOnce_found hevents now
    exact ⟨⟨rfl, hrows.symm⟩, hout⟩

end Database

end CartoLive.Store
