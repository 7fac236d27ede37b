import CartoLive.App.Backend
import CartoLive.Store.Backfill
import CartoLive.Store.Migrate

/-!
# Upgrading

A migration that fails leaves the database as it was; one that succeeds keeps
every row, and leaves nothing for another one to do. What it does not see to are
the packet paths: a row that got the default of a column it lacked counts as
projected, so that no backfill makes up for what it does not say.
-/

namespace CartoLive.Theorems.Upgrade

open CartoLive.Lib CartoLive.Go CartoLive.Live CartoLive.Store

/-! ## Older databases -/

/-- The rows of a table, with the defaults of the columns it lacks. -/
def filled (db : SqlDatabase) (name : String) : List SqlRow :=
  ((db.tables name).map (Table.filled (columnDefault name))).getD []

/-- A database of an older schema: tables of `schema.sql` with any of the
migrated columns missing, and rows that satisfy the constraints. -/
structure OldDatabase (db : SqlDatabase) : Prop where
  version : db.userVersion ≤ schemaVersion
  columns : ∀ entry ∈ schema, ∀ t, db.tables entry.1 = some t → ∀ c ∈ entry.2,
    c ∈ t.columns ∨ c ∈ (addedColumns entry.1).map Prod.fst
  unique : ∀ index ∈ uniqueIndexes, UniqueValues (filled db index.1) index.2
  edgeIDs : ((scanTables (filled db)).edges.map EdgeEvent.id).Nodup
  pathIDs : ((scanTables (filled db)).packetPaths.map PacketPathRow.edgeID).Nodup
  pathEdges : ∀ row ∈ (scanTables (filled db)).packetPaths,
    ∃ edge ∈ (scanTables (filled db)).edges, edge.id = row.edgeID

theorem default_addedColumns {name : String} {c : String × SqlValue} (hc : c ∈ addedColumns name) :
    c.2 = columnDefault name c.1 := by
  have hdefaults : ∀ m ∈ columnMigrations, m.default = columnDefault m.table m.column := by
    decide +kernel
  obtain ⟨m, hm, rfl⟩ := List.mem_map.mp hc
  obtain ⟨hmem, htable⟩ := List.mem_filter.mp hm
  have hname : m.table = name := of_decide_eq_true htable
  exact hname ▸ hdefaults m hmem

/-- A migrated table, read with or without defaults, says what the old one said
with them. -/
theorem map_rows_migratedTables {α : Type} (f : SqlRow → α) (columns : List String)
    (hf : ∀ row row' : SqlRow, (∀ c ∈ columns, row c = row' c) → f row = f row')
    (db : SqlDatabase) {name : String}
    (hcolumns : ∀ t, migratedTables db.tables name = some t → ∀ c ∈ columns, c ∈ t.columns) :
    ((migratedTables db.tables).rows name).map f = (filled db name).map f := by
  unfold SqlTables.rows filled
  cases htable : migratedTables db.tables name with
  | none =>
    rw [migratedTables_apply, Option.map_eq_none_iff, Option.or_eq_none_iff] at htable
    rw [htable.1]
    rfl
  | some t =>
    have hread : t.rows.map f = (t.filled (columnDefault name)).map f := by
      unfold Table.filled
      rw [List.map_map]
      refine List.map_congr_left fun row _ => hf _ _ fun c hc => ?_
      exact (if_pos (hcolumns t htable c hc)).symm
    show t.rows.map f = _
    rw [hread]
    rw [migratedTables_apply, Option.map_eq_some_iff] at htable
    obtain ⟨old, hold, rfl⟩ := htable
    rw [Table.filled_addColumns old fun c hc => default_addedColumns hc]
    cases hdb : db.tables name with
    | some t =>
      rw [hdb] at hold
      cases hold
      rfl
    | none =>
      -- a new table has no rows
      rw [hdb, Option.none_or, Option.map_eq_some_iff] at hold
      obtain ⟨_, -, rfl⟩ := hold
      rfl

variable {db : SqlDatabase}

/-- A migrated table has the columns of the schema. -/
theorem OldDatabase.mem_columns (h : OldDatabase db) {entry : String × List String}
    (hentry : entry ∈ schema) {t : SqlTable} (ht : migratedTables db.tables entry.1 = some t)
    {c : String} (hc : c ∈ entry.2) : c ∈ t.columns := by
  have hlookup : ∀ entry ∈ schema, schema.lookup entry.1 = some entry.2 := by decide +kernel
  have hadded := fun (c : String × SqlValue) hc => mem_columns_migratedTables ht (c := c) hc
  rw [migratedTables_apply, hlookup entry hentry, Option.map_eq_some_iff] at ht
  obtain ⟨old, hold, rfl⟩ := ht
  have hkeep := (Table.extends_addColumns old (addedColumns entry.1)).columns
  cases hdb : db.tables entry.1 with
  | none =>
    rw [hdb] at hold
    cases hold
    exact hkeep c hc
  | some t =>
    rw [hdb] at hold
    cases hold
    rcases h.columns entry hentry _ hdb c hc with hthere | hmissing
    · exact hkeep c hthere
    · obtain ⟨added, hin, rfl⟩ := List.mem_map.mp hmissing
      exact hadded added hin

theorem OldDatabase.mem_columns_of_subset (h : OldDatabase db) (name : String)
    {columns : List String} (hschema : ∃ entry ∈ schema, entry.1 = name ∧ columns ⊆ entry.2)
    (t : SqlTable) (ht : migratedTables db.tables name = some t) : ∀ c ∈ columns, c ∈ t.columns := by
  obtain ⟨entry, hentry, rfl, hsub⟩ := hschema
  exact fun c hc => h.mem_columns hentry ht (hsub hc)

/-- What the packet paths and their backfill read of a migrated database. -/
theorem OldDatabase.scanTables_migrated (h : OldDatabase db) (now : Int) :
    scanTables (migrated now db).tables.rows = scanTables (filled db) := by
  have hobservations := map_rows_migratedTables scanObservation observationColumns (fun _ _ => scanObservation_congr) db
    (h.mem_columns_of_subset "packet_observations" (by decide +kernel))
  have hedges := map_rows_migratedTables scanEdge edgeColumns (fun _ _ => scanEdge_congr) db
    (h.mem_columns_of_subset "live_edge_events" (by decide +kernel))
  have hpaths := map_rows_migratedTables scanPacketPath packetPathColumns (fun _ _ => scanPacketPath_congr) db
    (h.mem_columns_of_subset "public_packet_paths" (by decide +kernel))
  have hrows : ∀ name, name ≠ "schema_migrations" →
      (migrated now db).tables.rows name = (migratedTables db.tables).rows name :=
    fun name hname => by
      unfold SqlTables.rows
      rw [show (migrated now db).tables = recordVersion now (migratedTables db.tables) from rfl,
        recordVersion_of_ne now _ hname]
  unfold scanTables
  rw [hrows _ (by decide), hrows _ (by decide), hrows _ (by decide), hobservations, hedges, hpaths]

theorem OldDatabase.unique_migrated (h : OldDatabase db) :
    ∀ index ∈ uniqueIndexes, UniqueValues ((migratedTables db.tables).rows index.1) index.2 := by
  intro index hindex
  have hschema : ∀ index ∈ uniqueIndexes, ∃ entry ∈ schema, entry.1 = index.1 ∧
      [index.2] ⊆ entry.2 := by decide +kernel
  have hvalues := map_rows_migratedTables (fun row => row index.2) [index.2]
    (fun _ _ hsame => hsame _ (List.mem_singleton_self _)) db
    (h.mem_columns_of_subset index.1 (hschema index hindex))
  unfold UniqueValues
  rw [hvalues]
  exact h.unique index hindex

/-! ## What upgrading promises -/

section Env

variable [LiveEnv]

/-- The packet paths as if there had been none. -/
def emptied (db : PathDatabase) : PathDatabase := { db with packetPaths := [] }

/-- `Migrate` leaves the database as it was or keeps what it holds; a second
migration changes nothing; and once the packet paths of a window are backfilled
they read as if they had all been projected now. -/
structure Upgrades (db : SqlDatabase) : Prop where
  failed : ∀ env db' error, migrate env db = (db', some error) → db' = db
  kept : ∀ env db', migrate env db = (db', none) → ∀ name t, db.tables name = some t →
    ∃ t', db'.tables name = some t' ∧ t.Extends t'
  again : ∀ env db', migrate env db = (db', none) → ∀ env', (migrate env' db').1 = db'
  listed : ∀ env db', migrate env db = (db', none) → ∀ fromMs toMs now p q,
    PathDatabase.BackfilledUntil fromMs toMs now (scanTables db'.tables.rows) p →
      PathDatabase.BackfilledUntil fromMs toMs now (emptied (scanTables db'.tables.rows)) q →
        ∀ query, PathDatabase.Unfiltered query → query.fromMs = fromMs → query.toMs = toMs →
          p.publicPacketPaths now query = q.publicPacketPaths now query

/-! ## What the packet paths need -/

section Paths

variable {base : PathDatabase} {fromMs toMs now : Int} {p q : PathDatabase}

omit [LiveEnv] in
theorem emptied_joinedEdges (db : PathDatabase) : (emptied db).joinedEdges = db.joinedEdges := rfl

/-- Where the paths were emptied, the row of an edge is its projection. -/
theorem row_of_emptied (hq : PathDatabase.Backfilled (emptied base) q)
    (hids : (base.edges.map EdgeEvent.id).Nodup) {row : PacketPathRow} (hrow : row ∈ q.packetPaths)
    {edge : EdgeEvent} (hedge : edge ∈ base.joinedEdges) (hid : row.edgeID = edge.id) :
    row = pathRow edge := by
  obtain ⟨more, hrows, -, hall⟩ := hq.rows
  rw [hrows] at hrow
  obtain ⟨other, hother, rfl⟩ := List.mem_map.mp hrow
  rw [edgeID_pathRow] at hid
  rw [Database.eq_of_id_eq hids (hall other hother).1 hedge hid]

/-- Finished rows are listed as the emptied paths would be. -/
theorem same_pages_of_finished (hids : (base.edges.map EdgeEvent.id).Nodup)
    (hnodup : base.rowIDs.Nodup) (hedges : base.RowsOfEdges) (hfinished : base.Finished)
    (hp : PathDatabase.BackfilledUntil fromMs toMs now base p)
    (hq : PathDatabase.BackfilledUntil fromMs toMs now (emptied base) q)
    {query : PublicPacketPathQuery} (hquery : PathDatabase.Unfiltered query)
    (hfrom : query.fromMs = fromMs) (hto : query.toMs = toMs) :
    p.publicPacketPaths now query = q.publicPacketPaths now query := by
  subst hfrom hto
  obtain ⟨hp, hpcomplete⟩ := PathDatabase.backfilledUntil_spec (.refl base) hids hp
  obtain ⟨hq, hqcomplete⟩ := PathDatabase.backfilledUntil_spec (.refl (emptied base)) hids hq
  have hemptied : (emptied base).RowsOfEdges ∧ (emptied base).Finished :=
    ⟨fun row hrow => absurd hrow List.not_mem_nil, fun row hrow => absurd hrow List.not_mem_nil⟩
  rw [PathDatabase.publicPacketPaths_finished (hp.edges.symm ▸ hids) (hp.nodup hnodup)
      (hp.rowsOfEdges hedges) (hp.finished hids hfinished) hquery hpcomplete,
    PathDatabase.publicPacketPaths_finished (hq.edges.symm ▸ hids) (hq.nodup List.nodup_nil)
      (hq.rowsOfEdges hemptied.1) (hq.finished hids hemptied.2) hquery hqcomplete]
  exact PathDatabase.edgePages_congr
    (hp.joinedEdges.trans ((emptied_joinedEdges base).symm.trans hq.joinedEdges.symm)) now query

/-- Rows that are listed as the emptied paths would be are finished: the window
from the one time of a row to the other shows both. -/
theorem finished_of_same_pages (hids : (base.edges.map EdgeEvent.id).Nodup)
    (hnodup : base.rowIDs.Nodup)
    (hsame : ∀ fromMs toMs now p q, PathDatabase.BackfilledUntil fromMs toMs now base p →
      PathDatabase.BackfilledUntil fromMs toMs now (emptied base) q →
        ∀ query, PathDatabase.Unfiltered query → query.fromMs = fromMs → query.toMs = toMs →
          p.publicPacketPaths now query = q.publicPacketPaths now query) : base.Finished := by
  intro row hrow edge hedge hid
  let fromMs := min row.heardAt edge.heardAt
  let now := max row.heardAt edge.heardAt - Database.maxFutureEdgeSkew
  have hbound : boundedHistoryTo now 0 = max row.heardAt edge.heardAt := by
    unfold boundedHistoryTo
    simp [now]
  obtain ⟨p, hprun⟩ := PathDatabase.exists_backfilledUntil hids fromMs 0 now
  have hids' : ((emptied base).edges.map EdgeEvent.id).Nodup := hids
  obtain ⟨q, hqrun⟩ := PathDatabase.exists_backfilledUntil hids' fromMs 0 now
  have hpages := hsame fromMs 0 now p q hprun hqrun
  obtain ⟨hp, -⟩ := PathDatabase.backfilledUntil_spec (.refl base) hids hprun
  obtain ⟨hq, hqcomplete⟩ := PathDatabase.backfilledUntil_spec (.refl (emptied base)) hids hqrun
  have hrowp : row ∈ p.packetPaths := by
    obtain ⟨more, hrows, -⟩ := hp.rows
    exact hrows ▸ List.mem_append_left _ hrow
  have hshown : row.mappable = true → (pathRow edge).mappable = true ∧
      scanPublicPacketPathProjection row = scanPublicPacketPathProjection (pathRow edge) := by
    intro hmappable
    obtain ⟨row', hrow', hmappable', hscan⟩ := PathDatabase.exists_row_of_same_pages
      (hp.nodup hnodup) hpages hrowp hmappable (min_le_left _ _) (hbound ▸ le_max_left _ _)
    have hid' : row'.edgeID = edge.id :=
      (pulseID_inj (congrArg PublicPacketPath.id hscan)).trans hid.symm
    rw [row_of_emptied hq hids hrow' hedge hid'] at hmappable' hscan
    exact ⟨hmappable', hscan.symm⟩
  have hhidden : (pathRow edge).mappable = true → row.mappable = true := by
    intro hmappable
    obtain ⟨projected, hprojected, hid'⟩ := PathDatabase.exists_row_of_complete hqcomplete
      (hq.joinedEdges.symm ▸ hedge) (min_le_right _ _) (hbound ▸ le_max_right _ _)
    have heq := row_of_emptied hq hids hprojected hedge hid'
    have hheard : (pathRow edge).heardAt = edge.heardAt := heardAt_pathRow edge
    obtain ⟨row', hrow', hmappable', hscan⟩ := PathDatabase.exists_row_of_same_pages
      (hq.nodup List.nodup_nil) (fun query h hfrom hto => (hpages query h hfrom hto).symm)
      (heq ▸ hprojected) hmappable (hheard.symm ▸ min_le_right _ _)
      (hbound.symm ▸ hheard.symm ▸ le_max_right _ _)
    -- the row of the edge is the only one with its identifier
    have hrowid : row'.edgeID = row.edgeID :=
      ((pulseID_inj (congrArg PublicPacketPath.id hscan)).trans (edgeID_pathRow edge)).trans hid
    rw [List.inj_on_of_nodup_map (hp.nodup hnodup) hrow' hrowp hrowid] at hmappable'
    exact hmappable'
  refine ⟨?_, fun hmappable => (hshown hmappable).2⟩
  rw [Bool.eq_iff_iff]
  exact ⟨fun h => (hshown h).1, hhidden⟩

end Paths

/-! ## The main result -/

omit [LiveEnv] in
/-- What a migration keeps, whatever the rows. -/
theorem kept_migrated (now : Int) (db : SqlDatabase) {name : String} {t : SqlTable}
    (ht : db.tables name = some t) :
    ∃ t', (migrated now db).tables name = some t' ∧ t.Extends t' := by
  obtain ⟨t', ht', hextends⟩ := extends_migratedTables ht
  obtain ⟨t'', ht'', -, hextends'⟩ := recordVersion_apply now ht'
  exact ⟨t'', ht'', hextends.trans hextends'⟩

omit [LiveEnv] in
theorem migrated_again (now now' : Int) (db : SqlDatabase) :
    migrated now' (migrated now db) = migrated now db := by
  show SqlDatabase.mk (recordVersion now' (migratedTables (recordVersion now
    (migratedTables db.tables)))) schemaVersion = _
  rw [migratedTables_again, recordVersion_again]
  rfl

/-- An upgrade that keeps its promise found every row finished. -/
theorem Upgrades.finished {db : SqlDatabase} (hup : Upgrades db) (h : OldDatabase db) :
    PathDatabase.Finished (scanTables (filled db)) := by
  have hok := migrate_calm 0 h.version h.unique_migrated
  refine finished_of_same_pages h.edgeIDs h.pathIDs fun fromMs toMs now p q hp hq => ?_
  refine hup.listed _ _ hok fromMs toMs now p q ?_ ?_
  · rw [h.scanTables_migrated]
    exact hp
  · rw [h.scanTables_migrated]
    exact hq

/-- A packet path without segments is no finished projection, but counts as one:
an upgrade from a schema without them loses the packets of mappable edges. -/
theorem not_upgrades_of_missing_segments {db : SqlDatabase} (h : OldDatabase db) {t : SqlTable}
    (ht : db.tables "public_packet_paths" = some t) (hmissing : "segments_json" ∉ t.columns)
    {row : PacketPathRow} (hrow : row ∈ (scanTables (filled db)).packetPaths) {edge : EdgeEvent}
    (hedge : edge ∈ (scanTables (filled db)).joinedEdges) (hid : edge.id = row.edgeID)
    (hmappable : mappableSegments edge ≠ []) : ¬ Upgrades db := by
  intro hup
  obtain ⟨hsame, hscan⟩ := hup.finished h row hrow edge hedge hid
  have hprojected := rowOf_insertPublicPacketPath edge
  have hsegments : row.segments = [] := by
    obtain ⟨values, hvalues, rfl⟩ := List.mem_map.mp hrow
    unfold filled at hvalues
    rw [ht] at hvalues
    obtain ⟨old, -, rfl⟩ := List.mem_map.mp hvalues
    show (if "segments_json" ∈ t.columns then old "segments_json"
      else columnDefault "public_packet_paths" "segments_json").publicSegments = []
    rw [if_neg hmissing]
    rfl
  have hshown := congrArg (List.length ∘ PublicPacketPath.segments)
    (hscan (hsame.trans (hprojected.mappable.mpr hmappable)))
  simp only [Function.comp_apply, scanPublicPacketPathProjection, sanitizeProjectedPacketPath,
    List.length_map, hsegments, List.length_nil] at hshown
  exact (hprojected.path hmappable).2.2.2 (List.length_eq_zero_iff.mp hshown.symm)

/-- **An upgrade keeps history intact exactly when no row is unfinished.** For
every database of an older schema: a failed migration changes nothing, a
successful one keeps every row and leaves nothing to a second one, and the
backfilled packet paths of any window read as if they had been emptied before,
if and only if every packet path that is there, with the defaults of the columns
it lacks, shows what the projection of its edge shows. -/
theorem upgrades_iff {db : SqlDatabase} (h : OldDatabase db) :
    Upgrades db ↔ PathDatabase.Finished (scanTables (filled db)) := by
  have hedges : (scanTables (filled db)).RowsOfEdges := by
    intro row hrow
    obtain ⟨edge, hedge, hid⟩ := h.pathEdges row hrow
    exact ⟨_, List.mem_map_of_mem hedge, hid⟩
  constructor
  · exact fun hup => hup.finished h
  · intro hfinished
    have hcases : ∀ env db', migrate env db = (db', none) → db' = migrated env.now db := by
      intro env db' hrun
      rcases migrate_cases env db with ⟨error, hfail⟩ | ⟨-, hdone⟩
      · rw [hrun] at hfail
        cases hfail
      · rw [hrun] at hdone
        exact congrArg Prod.fst hdone
    constructor
    · intro env db' error hrun
      rcases migrate_cases env db with ⟨error', hfail⟩ | ⟨-, hdone⟩
      · rw [hrun] at hfail
        exact congrArg Prod.fst hfail
      · rw [hrun] at hdone
        cases hdone
    · intro env db' hrun name t ht
      rw [hcases env db' hrun]
      exact kept_migrated env.now db ht
    · intro env db' hrun env'
      rw [hcases env db' hrun]
      rcases migrate_cases env' (migrated env.now db) with ⟨error, hfail⟩ | ⟨-, hdone⟩
      · rw [hfail]
      · rw [hdone, migrated_again]
    · intro env db' hrun fromMs toMs now p q hp hq query hquery hfrom hto
      rw [hcases env db' hrun, h.scanTables_migrated] at hp hq
      exact same_pages_of_finished h.edgeIDs h.pathIDs hedges hfinished hp hq hquery hfrom hto

end Env

section Databases

open CartoLive.App

attribute [local instance] defaultEnv

def sampleRow (values : List (String × SqlValue)) : SqlRow := fun column =>
  (values.lookup column).getD (.text "")

/-- One packet with its edge and its packet path, in tables where some columns of
the packet paths are missing. -/
def onePacket (missing : List String) : SqlDatabase where
  userVersion := 0
  tables name := (schema.lookup name).map fun columns =>
    let path := pathRow { sampleEdge with id := 1 }
    { columns :=
        if name = "public_packet_paths" then columns.filter fun c => c ∉ missing else columns
      rows :=
        match name with
        | "packets" => [sampleRow [("packet_hash", .text "p")]]
        | "packet_observations" =>
          [sampleRow [("id", .integer 1), ("packet_hash", .text "p"), ("iata", .text "YOW"),
            ("heard_at_ms", .integer 1000)]]
        | "live_edge_events" =>
          [sampleRow [("id", .integer 1), ("packet_hash", .text "p"),
            ("observation_id", .integer 1), ("payload_type_name", .text "ADVERT"),
            ("heard_at_ms", .integer 1000), ("segments_json", .edgeSegments sampleEdge.segments)]]
        | "public_packet_paths" =>
          [sampleRow [("edge_id", .integer 1), ("observation_id", .integer 1),
            ("mappable", .integer 1), ("heard_at_ms", .integer 1000), ("iata", .text "YOW"),
            ("region", .text "YOW"), ("payload_type_name", .text "ADVERT"),
            ("hop_count", .integer 1), ("segment_count", .integer 1),
            ("route_ids_json", .texts path.routeIDs),
            ("endpoint_labels_json", .texts path.endpointLabels),
            ("segments_json", .routeSegments path.segments)]]
        | _ => [] }

theorem oldDatabase_onePacket {missing : List String}
    (h : ∀ c ∈ missing, c ∈ (addedColumns "public_packet_paths").map Prod.fst)
    (hunique : ∀ index ∈ uniqueIndexes, UniqueValues (filled (onePacket missing) index.1) index.2)
    (hedge : ((scanTables (filled (onePacket missing))).edges.map EdgeEvent.id) = [1])
    (hpath : ((scanTables (filled (onePacket missing))).packetPaths.map PacketPathRow.edgeID) = [1]) :
    OldDatabase (onePacket missing) where
  version := by
    show (0 : Int) ≤ schemaVersion
    decide
  columns := by
    intro entry hentry t ht c hc
    have hlookup : ∀ entry ∈ schema, schema.lookup entry.1 = some entry.2 := by decide +kernel
    simp only [onePacket, hlookup entry hentry, Option.map_some, Option.some.injEq] at ht
    subst ht
    dsimp only
    split
    · rename_i hname
      by_cases hmissing : c ∈ missing
      · exact .inr (hname ▸ h c hmissing)
      · exact .inl (List.mem_filter.mpr ⟨hc, decide_eq_true hmissing⟩)
    · exact .inl hc
  unique := hunique
  edgeIDs := by simp [hedge]
  pathIDs := by simp [hpath]
  pathEdges := by
    intro row hrow
    have hid : row.edgeID ∈ (scanTables (filled (onePacket missing))).edges.map EdgeEvent.id := by
      rw [hedge, ← hpath]
      exact List.mem_map_of_mem hrow
    exact List.mem_map.mp hid

/-- Columns that the packet path does not need may be missing. -/
theorem messageless_upgrades : Upgrades (onePacket ["message_sender", "message_text"]) := by
  refine (upgrades_iff (oldDatabase_onePacket (by decide +kernel) (by decide +kernel)
    (by decide +kernel) (by decide +kernel))).mpr ?_
  have hshows : ∀ row ∈ (scanTables (filled (onePacket ["message_sender",
      "message_text"]))).packetPaths, ∀ edge ∈ (scanTables (filled (onePacket ["message_sender",
        "message_text"]))).joinedEdges, edge.id = row.edgeID →
          row.mappable = (pathRow edge).mappable ∧ (row.mappable = true →
            scanPublicPacketPathProjection row =
              scanPublicPacketPathProjection (pathRow edge)) := by decide +kernel
  exact hshows

/-- The packet of a path whose segments were not stored is listed without them,
and no backfill finds it. -/
theorem segments_lost_by_upgrade : ¬ ∀ db, OldDatabase db → Upgrades db := by
  intro h
  have hold : OldDatabase (onePacket ["segments_json"]) := oldDatabase_onePacket (by decide +kernel)
    (by decide +kernel) (by decide +kernel) (by decide +kernel)
  have hfinished := (h _ hold).finished hold
  have hunfinished : ∃ row ∈ (scanTables (filled (onePacket ["segments_json"]))).packetPaths,
      ∃ edge ∈ (scanTables (filled (onePacket ["segments_json"]))).joinedEdges,
        edge.id = row.edgeID ∧ row.mappable = true ∧ scanPublicPacketPathProjection row ≠
          scanPublicPacketPathProjection (pathRow edge) := by decide +kernel
  obtain ⟨row, hrow, edge, hedge, hid, hmappable, hne⟩ := hunfinished
  exact hne ((hfinished row hrow edge hedge hid).2 hmappable)

end Databases

end CartoLive.Theorems.Upgrade
