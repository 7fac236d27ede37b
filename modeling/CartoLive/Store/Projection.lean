import CartoLive.Store.PacketPaths
import CartoLive.Lib.TSys

/-!
# The projection of edges

The three calls that project stored edges into `public_packet_paths` and
`public_route_summaries`: `ProjectEdgeEvent` (`edges.go`),
`BackfillPublicPacketPaths` (`public_packet_paths.go`) and
`BackfillPublicRouteSummaries` (`public_routes.go`). A backfill selects its edges
before its transaction begins, so that other calls may commit in between; every
transaction commits or rolls back as a whole.
-/

namespace CartoLive.Store

open CartoLive.Lib CartoLive.Go CartoLive.Live

section Env

variable [LiveEnv]

namespace PathDatabase

/-- `insertPublicPacketPathTx`: `ON CONFLICT(edge_id) DO UPDATE`. -/
def insertPublicPacketPathTx (db : PathDatabase) (edge : EdgeEvent) (region : String) :
    PathDatabase :=
  let row := insertPublicPacketPath edge region
  if db.packetPaths.any fun r => r.edgeID = row.edgeID then
    { db with packetPaths := db.packetPaths.map fun r => if r.edgeID = row.edgeID then row else r }
  else { db with packetPaths := db.packetPaths ++ [row] }

/-- `upsertPublicRouteSummariesTx`, beside the packet paths. -/
def upsertPublicRouteSummariesTx (db : PathDatabase) (edge : EdgeEvent) : PathDatabase :=
  { db with toDatabase := db.toDatabase.upsertPublicRouteSummariesTx edge }

/-- The region that `ProjectEdgeEvent` stores. -/
def projectedRegion (db : PathDatabase) (event : EdgeEvent) : String :=
  if trimSpace event.iata = "" then (db.toDatabase.joined event).iata else event.iata

/-- The transaction of `ProjectEdgeEvent`. -/
def projectEdgeEvent (db : PathDatabase) (event : EdgeEvent) : PathDatabase :=
  if event.id ≤ 0 then db
  else
    (db.insertPublicPacketPathTx event (db.projectedRegion event)).upsertPublicRouteSummariesTx
      event

/-- `publicPacketPathMissingEdges`. -/
def publicPacketPathMissingEdges (db : PathDatabase) (now fromMs toMs : Int) (limit : Nat) :
    List EdgeEvent :=
  (((db.edges.filter fun edge =>
    decide (fromMs ≤ edge.heardAt) && decide (edge.heardAt ≤ boundedHistoryTo now toMs) &&
      !db.packetPaths.any fun row => row.edgeID = edge.id).insertionSort
    Database.heardEdgeBefore).take limit).map db.toDatabase.joined

/-- The limit that `BackfillPublicPacketPaths` works with. -/
def pathBackfillLimit (limit : Int) : Nat :=
  if limit ≤ 0 ∨ 2000 < limit then 500 else limit.toNat

/-- The limit that `BackfillPublicRouteSummaries` works with. -/
def summaryBackfillLimit (limit : Int) : Nat :=
  if limit ≤ 0 then 500 else if 2000 < limit then 2000 else limit.toNat

/-- The transaction of `BackfillPublicPacketPaths` over the edges it selected. -/
def backfillPublicPacketPathsTx (db : PathDatabase) (edges : List EdgeEvent) : PathDatabase :=
  edges.foldl (fun db edge =>
    (db.insertPublicPacketPathTx edge edge.iata).upsertPublicRouteSummariesTx edge) db

/-- The transaction of `BackfillPublicRouteSummaries` over the edges it selected. -/
def backfillPublicRouteSummariesTx (db : PathDatabase) (edges : List EdgeEvent) : PathDatabase :=
  edges.foldl upsertPublicRouteSummariesTx db

/-- `BackfillPublicPacketPaths`: the database it leaves. -/
def backfillPublicPacketPaths (db : PathDatabase) (now fromMs toMs limit : Int) : PathDatabase :=
  db.backfillPublicPacketPathsTx
    (db.publicPacketPathMissingEdges now fromMs toMs (pathBackfillLimit limit))

/-- Its result `Remaining`; `searchRemaining` is what the search index, which is
not in the model, has left to do. -/
def backfillRemaining (db : PathDatabase) (now fromMs toMs : Int) (searchRemaining : Bool) : Bool :=
  !db.publicPacketPathProjectionComplete now fromMs toMs || searchRemaining

/-- Backfills of a window are repeated until one of them, at `now`, reports that
nothing remains. A call that fails changes nothing. -/
inductive BackfilledUntil (fromMs toMs now : Int) : PathDatabase → PathDatabase → Prop
  | done {db} (limit : Int) (searchRemaining : Bool)
      (h : (db.backfillPublicPacketPaths now fromMs toMs limit).backfillRemaining now fromMs toMs
        searchRemaining = false) :
      BackfilledUntil fromMs toMs now db (db.backfillPublicPacketPaths now fromMs toMs limit)
  | again {db db'} (now' limit : Int)
      (h : BackfilledUntil fromMs toMs now (db.backfillPublicPacketPaths now' fromMs toMs limit) db') :
      BackfilledUntil fromMs toMs now db db'

/-! ### The other tables -/

@[simp] theorem toDatabase_insertPublicPacketPathTx (db : PathDatabase) (edge : EdgeEvent)
    (region : String) : (db.insertPublicPacketPathTx edge region).toDatabase = db.toDatabase := by
  unfold PathDatabase.insertPublicPacketPathTx
  dsimp only
  split <;> rfl

@[simp] theorem toDatabase_upsertPublicRouteSummariesTx (db : PathDatabase) (edge : EdgeEvent) :
    (db.upsertPublicRouteSummariesTx edge).toDatabase =
      db.toDatabase.upsertPublicRouteSummariesTx edge := rfl

/-- A fold over the tables, seen from those without packet paths. -/
theorem toDatabase_foldl {step : PathDatabase → EdgeEvent → PathDatabase}
    (hstep : ∀ db edge,
      (step db edge).toDatabase = db.toDatabase.upsertPublicRouteSummariesTx edge)
    (edges : List EdgeEvent) (db : PathDatabase) :
    (edges.foldl step db).toDatabase =
      edges.foldl Database.upsertPublicRouteSummariesTx db.toDatabase := by
  induction edges generalizing db with
  | nil => rfl
  | cons edge edges ih => rw [List.foldl_cons, List.foldl_cons, ih, hstep]

end PathDatabase

/-! ## The system -/

/-- A call that has not ended, with the edges that its transaction is about. -/
inductive ProjectionCall
  | projectEdgeEvent (event : EdgeEvent)
  | backfillPublicPacketPaths (edges : List EdgeEvent)
  | backfillPublicRouteSummaries (edges : List EdgeEvent)

def ProjectionCall.edges : ProjectionCall → List EdgeEvent
  | .projectEdgeEvent event => [event]
  | .backfillPublicPacketPaths edges | .backfillPublicRouteSummaries edges => edges

/-- The transaction of a call. -/
def ProjectionCall.commit (db : PathDatabase) : ProjectionCall → PathDatabase
  | .projectEdgeEvent event => db.projectEdgeEvent event
  | .backfillPublicPacketPaths edges => db.backfillPublicPacketPathsTx edges
  | .backfillPublicRouteSummaries edges => db.backfillPublicRouteSummariesTx edges

structure ProjectionState where
  db : PathDatabase
  calls : List ProjectionCall

inductive ProjectionAct
  /-- `ProjectEdgeEvent` is called. -/
  | project (event : EdgeEvent)
  /-- `BackfillPublicPacketPaths` is called and selects its edges. -/
  | selectPaths (now fromMs toMs limit : Int)
  /-- `BackfillPublicRouteSummaries` is called and selects its edges. -/
  | selectSummaries (now fromMs toMs limit : Int)
  /-- The transaction of a call commits. -/
  | commit (i : Nat)
  /-- It rolls back, and the call returns its error. -/
  | rollback (i : Nat)

/-- The event of a stored edge: the region and the ingest identifier may differ,
since a query reads the region of the observation. -/
def StoredEdge (db : Database) (event : EdgeEvent) : Prop :=
  ∃ row ∈ db.edges, row.id = event.id ∧ row.segments = event.segments ∧
    row.heardAt = event.heardAt ∧ row.payloadTypeName = event.payloadTypeName

instance (db : Database) (event : EdgeEvent) : Decidable (StoredEdge db event) := by
  unfold StoredEdge
  infer_instance

def projectionStep (s : ProjectionState) : ProjectionAct → Option ProjectionState
  | .project event =>
    if StoredEdge s.db.toDatabase event then
      some { s with calls := s.calls ++ [.projectEdgeEvent event] }
    else none
  | .selectPaths now fromMs toMs limit =>
    let edges := s.db.publicPacketPathMissingEdges now fromMs toMs
      (PathDatabase.pathBackfillLimit limit)
    some { s with calls := s.calls ++ [.backfillPublicPacketPaths edges] }
  | .selectSummaries now fromMs toMs limit =>
    let edges := s.db.toDatabase.missingEdges fromMs (boundedHistoryTo now toMs)
      (PathDatabase.summaryBackfillLimit limit)
    some { s with calls := s.calls ++ [.backfillPublicRouteSummaries edges] }
  | .commit i => s.calls[i]?.map fun call =>
    { db := call.commit s.db, calls := s.calls.eraseIdx i }
  | .rollback i => s.calls[i]?.map fun _ => { s with calls := s.calls.eraseIdx i }

/-- The tables before anything is projected, over some stored edges. -/
structure Unprojected (db : PathDatabase) : Prop where
  ids : (db.edges.map EdgeEvent.id).Nodup
  bounded : ∀ edge ∈ db.edges, 0 < edge.id ∧ edge.id ≤ db.edgeSequence
  sequence : 0 ≤ db.edgeSequence
  projected : db.projected = []
  summaries : db.summaries = []
  packetPaths : db.packetPaths = []

/-- The calls over a fixed set of edges. -/
def projecting : TSys ProjectionState ProjectionAct where
  init s := Unprojected s.db ∧ s.calls = []
  step := projectionStep

end Env

end CartoLive.Store
