import CartoLive.Lib.BoundedDelete
import Mathlib.Logic.Function.Basic

/-!
# Retention pruning

`RetentionPruner` of `prune.go` and the tables that it empties, with the columns
that it looks at: the row identifier, the time of a row, and the columns that
refer to another table or are referred to. `DELETE` checks foreign keys as SQLite
does when they are on: at the end of the statement no row may refer to a row
that it has deleted, else the statement fails and changes nothing.

The search index of `public_packet_paths` follows the table by triggers and is
left out.
-/

namespace CartoLive.Store.Prune

open CartoLive.Lib

def pruneBatchSize : Nat := 100

/-! ## Tables -/

/-- The tables without a foreign key. -/
inductive PlainTable
  | publicEvents
  | publicRouteSummaryEdges
  | publicRouteSummaries
  | publicCoverageCells
  | observerStatus
  | solarSnapshots
  | propagationWeatherSnapshots
  deriving DecidableEq

structure PlainRow where
  rowid : Int
  time : Int
  deriving DecidableEq

/-- A row of `propagation_events`. -/
structure PropagationEvent where
  id : Int
  edgeID : Int
  atMs : Int
  deriving DecidableEq

/-- A row of `public_packet_paths`; `edge_id` is its row identifier. -/
structure PacketPath where
  edgeID : Int
  observationID : Int
  heardAt : Int
  deriving DecidableEq

/-- A row of `live_edge_events`. -/
structure LiveEdge where
  id : Int
  observationID : Int
  heardAt : Int
  deriving DecidableEq

/-- A row of `packet_observations`. -/
structure Observation where
  id : Int
  packetHash : String
  heardAt : Int
  deriving DecidableEq

/-- A row of `packets`. -/
structure Packet where
  rowid : Int
  packetHash : String
  deriving DecidableEq

structure Tables where
  plain : PlainTable → List PlainRow
  propagationEvents : List PropagationEvent
  publicPacketPaths : List PacketPath
  liveEdgeEvents : List LiveEdge
  packetObservations : List Observation
  packets : List Packet

/-- The foreign keys of the schema. -/
structure Tables.ForeignKeys (db : Tables) : Prop where
  event_path : ∀ e ∈ db.propagationEvents, ∃ p ∈ db.publicPacketPaths, p.edgeID = e.edgeID
  path_edge : ∀ p ∈ db.publicPacketPaths, ∃ e ∈ db.liveEdgeEvents, e.id = p.edgeID
  path_observation : ∀ p ∈ db.publicPacketPaths, ∃ o ∈ db.packetObservations,
    o.id = p.observationID
  edge_observation : ∀ e ∈ db.liveEdgeEvents, ∃ o ∈ db.packetObservations, o.id = e.observationID
  observation_packet : ∀ o ∈ db.packetObservations, ∃ p ∈ db.packets, p.packetHash = o.packetHash

/-- The primary keys of the schema. -/
structure Tables.PrimaryKeys (db : Tables) : Prop where
  plain : ∀ table, ((db.plain table).map PlainRow.rowid).Nodup
  propagationEvents : (db.propagationEvents.map PropagationEvent.id).Nodup
  publicPacketPaths : (db.publicPacketPaths.map PacketPath.edgeID).Nodup
  liveEdgeEvents : (db.liveEdgeEvents.map LiveEdge.id).Nodup
  packetObservations : (db.packetObservations.map Observation.id).Nodup
  packets : (db.packets.map Packet.rowid).Nodup

/-- A path carries the time of its edge, and a propagation event that of its
path. -/
structure Tables.Timed (db : Tables) : Prop where
  path_edge : ∀ p ∈ db.publicPacketPaths, ∀ e ∈ db.liveEdgeEvents, e.id = p.edgeID →
    p.heardAt = e.heardAt
  event_path : ∀ e ∈ db.propagationEvents, ∀ p ∈ db.publicPacketPaths, p.edgeID = e.edgeID →
    e.atMs = p.heardAt

/-! ## The pruner -/

structure RetentionCutoffs where
  dataBeforeMs : Int
  publicEventBeforeMs : Int
  propagationBeforeMs : Int

structure RetentionPruneStep where
  target : String
  rowsDeleted : Nat
  done : Bool
  deriving DecidableEq

/-- `retentionPruneTarget`; each constructor has the `whereSQL` of its entry. -/
inductive Target
  | plain (table : PlainTable) (beforeMs : Int)
  | propagationEvents (beforeMs : Int)
  | publicPacketPaths (beforeMs : Int)
  | liveEdgeEvents (beforeMs : Int)
  | packetObservations (beforeMs : Int)
  | packets

structure RetentionPruner where
  targets : List Target
  next : Nat

/-- The propagation cutoff in force. -/
def RetentionCutoffs.propagation (cutoffs : RetentionCutoffs) : Int :=
  if cutoffs.propagationBeforeMs ≤ 0 then cutoffs.dataBeforeMs else cutoffs.propagationBeforeMs

/-- The targets of `NewRetentionPruner`, in their order. -/
def targets (cutoffs : RetentionCutoffs) : List Target :=
  [.plain .publicEvents cutoffs.publicEventBeforeMs,
    .propagationEvents cutoffs.propagation,
    .publicPacketPaths cutoffs.dataBeforeMs,
    .plain .publicRouteSummaryEdges cutoffs.dataBeforeMs,
    .plain .publicRouteSummaries cutoffs.dataBeforeMs,
    .plain .publicCoverageCells cutoffs.dataBeforeMs,
    .liveEdgeEvents cutoffs.dataBeforeMs,
    .packetObservations cutoffs.dataBeforeMs,
    .plain .observerStatus cutoffs.dataBeforeMs,
    .plain .solarSnapshots cutoffs.dataBeforeMs,
    .plain .propagationWeatherSnapshots cutoffs.propagation,
    .packets]

def newRetentionPruner (cutoffs : RetentionCutoffs) : RetentionPruner :=
  { targets := targets cutoffs, next := 0 }

def PlainTable.name : PlainTable → String
  | .publicEvents => "public_events"
  | .publicRouteSummaryEdges => "public_route_summary_edges"
  | .publicRouteSummaries => "public_route_summaries"
  | .publicCoverageCells => "public_coverage_cells"
  | .observerStatus => "observer_status"
  | .solarSnapshots => "solar_snapshots"
  | .propagationWeatherSnapshots => "propagation_weather_snapshots"

def Target.table : Target → String
  | .plain table _ => table.name
  | .propagationEvents _ => "propagation_events"
  | .publicPacketPaths _ => "public_packet_paths"
  | .liveEdgeEvents _ => "live_edge_events"
  | .packetObservations _ => "packet_observations"
  | .packets => "packets"

/-- A live edge or a path refers to the observation. -/
def Tables.Referenced (db : Tables) (o : Observation) : Prop :=
  (∃ e ∈ db.liveEdgeEvents, e.observationID = o.id) ∨
    ∃ p ∈ db.publicPacketPaths, p.observationID = o.id

instance (db : Tables) (o : Observation) : Decidable (db.Referenced o) := by
  unfold Tables.Referenced
  infer_instance

/-- The rows that the `DELETE` of `packet_observations` matches. -/
def observationCandidate (db : Tables) (beforeMs : Int) (o : Observation) : Bool :=
  o.heardAt < beforeMs ∧ ¬ db.Referenced o

/-- The rows that the `DELETE` of `packets` matches. -/
def packetCandidate (db : Tables) (p : Packet) : Bool :=
  ∀ o ∈ db.packetObservations, o.packetHash ≠ p.packetHash

/-- The `DELETE` of a target: the tables after it and the rows deleted. -/
def Target.delete (limit : Limit pruneBatchSize) (db : Tables) :
    Target → Except String (Tables × Nat)
  | .plain table beforeMs =>
    let candidate := fun row : PlainRow => decide (row.time < beforeMs)
    let rows := db.plain table
    .ok ({ db with
      plain := Function.update db.plain table (keptRows PlainRow.rowid candidate limit rows) },
      (deletedRows PlainRow.rowid candidate limit rows).length)
  | .propagationEvents beforeMs =>
    let candidate := fun e : PropagationEvent => decide (e.atMs < beforeMs)
    let rows := db.propagationEvents
    .ok ({ db with
      propagationEvents := keptRows PropagationEvent.id candidate limit rows },
      (deletedRows PropagationEvent.id candidate limit rows).length)
  | .publicPacketPaths beforeMs =>
    let candidate := fun p : PacketPath => decide (p.heardAt < beforeMs)
    let rows := db.publicPacketPaths
    let deleted := deletedRows PacketPath.edgeID candidate limit rows
    if ∃ e ∈ db.propagationEvents, ∃ p ∈ deleted, p.edgeID = e.edgeID then
      .error "prune public_packet_paths: FOREIGN KEY constraint failed"
    else
      .ok ({ db with
        publicPacketPaths := keptRows PacketPath.edgeID candidate limit rows }, deleted.length)
  | .liveEdgeEvents beforeMs =>
    let candidate := fun e : LiveEdge => decide (e.heardAt < beforeMs)
    let rows := db.liveEdgeEvents
    let deleted := deletedRows LiveEdge.id candidate limit rows
    if ∃ p ∈ db.publicPacketPaths, ∃ e ∈ deleted, e.id = p.edgeID then
      .error "prune live_edge_events: FOREIGN KEY constraint failed"
    else
      .ok ({ db with liveEdgeEvents := keptRows LiveEdge.id candidate limit rows }, deleted.length)
  | .packetObservations beforeMs =>
    let candidate := observationCandidate db beforeMs
    let rows := db.packetObservations
    let deleted := deletedRows Observation.id candidate limit rows
    if (∃ e ∈ db.liveEdgeEvents, ∃ o ∈ deleted, o.id = e.observationID) ∨
        ∃ p ∈ db.publicPacketPaths, ∃ o ∈ deleted, o.id = p.observationID then
      .error "prune packet_observations: FOREIGN KEY constraint failed"
    else
      .ok ({ db with
        packetObservations := keptRows Observation.id candidate limit rows }, deleted.length)
  | .packets =>
    let candidate := packetCandidate db
    let rows := db.packets
    let deleted := deletedRows Packet.rowid candidate limit rows
    if ∃ o ∈ db.packetObservations, ∃ p ∈ deleted, p.packetHash = o.packetHash then
      .error "prune packets: FOREIGN KEY constraint failed"
    else .ok ({ db with packets := keptRows Packet.rowid candidate limit rows }, deleted.length)

/-- `Step`: one bounded `DELETE`; a short one ends its target. -/
def RetentionPruner.step (p : RetentionPruner) (limit : Limit pruneBatchSize) (db : Tables) :
    Except String (RetentionPruner × Tables × RetentionPruneStep) :=
  match p.targets[p.next]? with
  | none => .ok (p, db, { target := "", rowsDeleted := 0, done := true })
  | some target =>
    match target.delete limit db with
    | .error err => .error err
    | .ok (db, affected) =>
      let next := if affected < pruneBatchSize then p.next + 1 else p.next
      .ok ({ p with next }, db,
        { target := target.table, rowsDeleted := affected, done := p.targets.length ≤ next })

/-- The first `n` steps of a pruner; `limits n` says what the `LIMIT` of step `n`
returns. -/
def runSteps (limits : Nat → Limit pruneBatchSize) (p : RetentionPruner) (db : Tables) :
    Nat → Except String (RetentionPruner × Tables)
  | 0 => .ok (p, db)
  | n + 1 =>
    match runSteps limits p db n with
    | .error err => .error err
    | .ok (p, db) => (p.step (limits n) db).map fun result => (result.1, result.2.1)

end CartoLive.Store.Prune
