import CartoLive.Store.SqlTables

/-!
# Migrate

`Migrate` of `db.go` with the statements it runs: the base tables, the columns
older schemas lack, the rest of the schema, the record of the version. Any
statement may fail; then the transaction rolls back.

Whatever the environment, a migration that succeeds makes one and the same
database (`migrated`), up to the time it records.
-/

namespace CartoLive.Store

open CartoLive.Lib

/-- `SchemaVersion`. -/
def schemaVersion : Int := 32000

/-! ## Columns that older schemas lack -/

structure ColumnMigration where
  table : String
  column : String
  default : SqlValue
  deriving DecidableEq

/-- The list of `migrateColumns`. -/
def columnMigrations : List ColumnMigration :=
  [⟨"nodes", "supports_multibyte", .text "unknown"⟩,
    ⟨"packet_observations", "ingest_id", .text ""⟩,
    ⟨"packet_observations", "message_sender", .text ""⟩,
    ⟨"packet_observations", "message_text", .text ""⟩,
    ⟨"live_edge_events", "message_sender", .text ""⟩,
    ⟨"live_edge_events", "ingest_id", .text ""⟩,
    ⟨"live_edge_events", "message_text", .text ""⟩,
    ⟨"live_edge_events", "message_anchor_json", .text ""⟩,
    ⟨"public_packet_paths", "mappable", .integer 1⟩,
    ⟨"public_events", "dedupe_key", .text ""⟩,
    ⟨"public_packet_paths", "region", .text ""⟩,
    ⟨"public_packet_paths", "payload_type_name", .text ""⟩,
    ⟨"public_packet_paths", "message_sender", .text ""⟩,
    ⟨"public_packet_paths", "message_text", .text ""⟩,
    ⟨"public_packet_paths", "hop_count", .integer 0⟩,
    ⟨"public_packet_paths", "segment_count", .integer 0⟩,
    ⟨"public_packet_paths", "distance_km", .real (.fin 0)⟩,
    ⟨"public_packet_paths", "route_ids_json", .text "[]"⟩,
    ⟨"public_packet_paths", "endpoint_labels_json", .text "[]"⟩,
    ⟨"public_packet_paths", "segments_json", .text "[]"⟩,
    ⟨"public_packet_paths", "search_text", .text ""⟩]

/-- The columns that may be added to a table, with their defaults. -/
def addedColumns (name : String) : List (String × SqlValue) :=
  (columnMigrations.filter fun m => m.table = name).map fun m => (m.column, m.default)

/-- The default of a column that may be added. -/
def columnDefault (name column : String) : SqlValue :=
  ((addedColumns name).lookup column).getD .null

/-! ## Statements -/

/-- `CREATE TABLE IF NOT EXISTS`. -/
def createTable (tables : SqlTables) (name : String) (columns : List String) : SqlTables :=
  if (tables name).isSome then tables
  else Function.update tables name (some { columns, rows := [] })

def createTables (tables : SqlTables) : SqlTables :=
  schema.foldl (fun tables entry => createTable tables entry.1 entry.2) tables

/-- `ALTER TABLE .. ADD COLUMN` of a migration. -/
def alterTable (tables : SqlTables) (m : ColumnMigration) : SqlTables :=
  Function.update tables m.table ((tables m.table).map fun t => t.addColumn m.column m.default)

/-- `INSERT OR IGNORE INTO schema_migrations`. -/
def recordVersion (now : Int) (tables : SqlTables) : SqlTables :=
  Function.update tables "schema_migrations" <| (tables "schema_migrations").map fun t =>
    if t.rows.any fun row => row "version" = .integer schemaVersion then t
    else
      { t with
        rows := t.rows ++
          [fun column =>
            if column = "version" then .integer schemaVersion
            else if column = "applied_at_ms" then .integer now
            else .null] }

/-- What a migration meets: the time, and what keeps a statement from running, by
the text of its error and the table it is about. -/
structure MigrationEnv where
  now : Int
  fault : String → String → Option String

def MigrationEnv.run (env : MigrationEnv) (message table : String) : Except String Unit :=
  match env.fault message table with
  | none => .ok ()
  | some error => .error (message ++ ": " ++ error)

/-- `ensureBaseTables`. -/
def ensureBaseTables (env : MigrationEnv) (tables : SqlTables) : Except String SqlTables :=
  schema.foldlM
    (fun tables entry => do
      env.run "migrate sqlite base tables" entry.1
      .ok (createTable tables entry.1 entry.2))
    tables

def sqliteIdent (name : String) : Except String Unit :=
  if name = "" then .error "empty sqlite identifier"
  else if name.toList.all fun r =>
    r = '_' ∨ 'a' ≤ r ∧ r ≤ 'z' ∨ 'A' ≤ r ∧ r ≤ 'Z' ∨ '0' ≤ r ∧ r ≤ '9' then .ok ()
  else .error ("unsafe sqlite identifier " ++ name.quote)

/-- `addColumnIfMissing`. -/
def addColumnIfMissing (env : MigrationEnv) (tables : SqlTables) (m : ColumnMigration) :
    Except String SqlTables := do
  sqliteIdent m.table
  env.run ("inspect sqlite table " ++ m.table) m.table
  match tables m.table with
  | none =>
    .error ("migrate sqlite column " ++ m.table ++ "." ++ m.column ++ ": no such table: " ++ m.table)
  | some t =>
    if m.column ∈ t.columns then .ok tables
    else do
      env.run ("migrate sqlite column " ++ m.table ++ "." ++ m.column) m.table
      .ok (alterTable tables m)

def migrateColumns (env : MigrationEnv) (tables : SqlTables) : Except String SqlTables :=
  columnMigrations.foldlM (addColumnIfMissing env) tables

/-- The whole of `schema.sql` runs again: the tables are there by now, and the
unique indexes are made. -/
def execSchema (env : MigrationEnv) (tables : SqlTables) : Except String SqlTables := do
  env.run "migrate sqlite" ""
  let tables := createTables tables
  match uniqueIndexes.find? fun index => ¬ UniqueValues (tables.rows index.1) index.2 with
  | some index => .error ("migrate sqlite: UNIQUE constraint failed: " ++ index.1 ++ "." ++ index.2)
  | none => .ok tables

/-- The statements of the transaction. -/
def migrateTx (env : MigrationEnv) (db : SqlDatabase) : Except String SqlDatabase := do
  env.run "begin sqlite migration" ""
  let tables ← ensureBaseTables env db.tables
  let tables ← migrateColumns env tables
  env.run "sqlite migration hook after_columns" ""
  let tables ← execSchema env tables
  env.run "record sqlite schema migration" ""
  let tables := recordVersion env.now tables
  env.run "set sqlite schema version" ""
  env.run "commit sqlite schema version" ""
  .ok { tables, userVersion := schemaVersion }

/-- `Migrate`: the database it leaves, and its error. -/
def migrate (env : MigrationEnv) (db : SqlDatabase) : SqlDatabase × Option String :=
  match env.fault "read sqlite schema version" "" with
  | some error => (db, some ("read sqlite schema version: " ++ error))
  | none =>
    if schemaVersion < db.userVersion then
      (db, some ("sqlite schema version " ++ toString db.userVersion ++
        " is newer than supported version " ++ toString schemaVersion))
    else
      match migrateTx env db with
      | .error error => (db, some error)
      | .ok db' => (db', none)

/-! ## What a migration makes -/

/-- The tables of a migrated database, before its version is recorded. -/
def migratedTables (tables : SqlTables) : SqlTables :=
  columnMigrations.foldl alterTable (createTables tables)

/-- What a migration makes of a database. -/
def migrated (now : Int) (db : SqlDatabase) : SqlDatabase :=
  { tables := recordVersion now (migratedTables db.tables), userVersion := schemaVersion }

section Tables

variable {tables : SqlTables} {name : String}

theorem foldl_createTable (entries : List (String × List String)) (tables : SqlTables)
    (name : String) :
    entries.foldl (fun tables entry => createTable tables entry.1 entry.2) tables name =
      (tables name).or ((entries.lookup name).map fun columns => { columns, rows := [] }) := by
  induction entries generalizing tables with
  | nil => simp
  | cons entry entries ih =>
    rw [List.foldl_cons, ih, List.lookup_cons]
    unfold createTable
    by_cases hname : name = entry.1
    · subst hname
      cases htable : tables entry.1 <;> simp [htable]
    · have hne : (name == entry.1) = false := by simpa using hname
      rw [hne]
      split
      · rfl
      · rw [Function.update_of_ne hname]

theorem foldl_alterTable (migrations : List ColumnMigration) (tables : SqlTables) (name : String) :
    migrations.foldl alterTable tables name =
      (tables name).map fun t =>
        t.addColumns ((migrations.filter fun m => m.table = name).map fun m =>
          (m.column, m.default)) := by
  induction migrations generalizing tables with
  | nil =>
    show tables name = _
    cases tables name <;> rfl
  | cons m migrations ih =>
    rw [List.foldl_cons, ih]
    unfold alterTable
    by_cases hname : m.table = name
    · subst hname
      rw [Function.update_self, Option.map_map, List.filter_cons_of_pos (by simp)]
      rfl
    · rw [Function.update_of_ne (Ne.symm hname), List.filter_cons_of_neg (by simpa using hname)]

/-- A table of a migrated database: the table there was, or a new one, with the
columns that may be missing. -/
theorem migratedTables_apply (tables : SqlTables) (name : String) :
    migratedTables tables name =
      ((tables name).or ((schema.lookup name).map fun columns => { columns, rows := [] })).map
        fun t => t.addColumns (addedColumns name) := by
  unfold migratedTables createTables addedColumns
  rw [foldl_alterTable, foldl_createTable]

/-- Tables that are all there are created no more. -/
theorem createTables_of_isSome (h : ∀ entry ∈ schema, (tables entry.1).isSome) :
    createTables tables = tables := by
  funext name
  unfold createTables
  rw [foldl_createTable]
  cases htable : tables name with
  | some t => rfl
  | none =>
    cases hlookup : schema.lookup name with
    | none => rfl
    | some columns =>
      obtain ⟨before, after, hschema, -⟩ := List.lookup_eq_some_iff.mp hlookup
      have := h (name, columns) (hschema ▸ List.mem_append_right _ List.mem_cons_self)
      rw [htable] at this
      cases this

theorem isSome_migratedTables (tables : SqlTables) {entry : String × List String}
    (h : entry ∈ schema) : (migratedTables tables entry.1).isSome := by
  rw [migratedTables_apply, Option.isSome_map, Option.isSome_or, Option.isSome_map]
  have hlookup : ∀ entry ∈ schema, (schema.lookup entry.1).isSome = true := by decide +kernel
  rw [hlookup entry h, Bool.or_true]

/-- A migrated table has the columns that may be missing. -/
theorem mem_columns_migratedTables {t : SqlTable} (h : migratedTables tables name = some t)
    {c : String × SqlValue} (hc : c ∈ addedColumns name) : c.1 ∈ t.columns := by
  rw [migratedTables_apply, Option.map_eq_some_iff] at h
  obtain ⟨old, -, rfl⟩ := h
  exact Table.mem_addColumns old hc

theorem extends_migratedTables {t : SqlTable} (h : tables name = some t) :
    ∃ t', migratedTables tables name = some t' ∧ t.Extends t' := by
  refine ⟨t.addColumns (addedColumns name), ?_, Table.extends_addColumns t _⟩
  rw [migratedTables_apply, h]
  rfl

/-! ### The record of the version -/

/-- Recording the version adds a row at most. -/
theorem recordVersion_apply (now : Int) {t : SqlTable} (h : tables name = some t) :
    ∃ t', recordVersion now tables name = some t' ∧ t'.columns = t.columns ∧ t.Extends t' := by
  unfold recordVersion
  by_cases hname : name = "schema_migrations"
  · subst hname
    rw [Function.update_self, h]
    refine ⟨_, rfl, ?_⟩
    dsimp only
    split
    · exact ⟨rfl, .refl t⟩
    · exact ⟨rfl, Table.extends_append t _⟩
  · rw [Function.update_of_ne hname, h]
    exact ⟨t, rfl, rfl, .refl t⟩

theorem recordVersion_of_ne (now : Int) (tables : SqlTables) (h : name ≠ "schema_migrations") :
    recordVersion now tables name = tables name := Function.update_of_ne h _ _

theorem recordVersion_eq_none (now : Int) :
    recordVersion now tables name = none ↔ tables name = none := by
  unfold recordVersion
  by_cases hname : name = "schema_migrations"
  · subst hname
    rw [Function.update_self, Option.map_eq_none_iff]
  · rw [Function.update_of_ne hname]

/-- A version that is recorded is not recorded again. -/
theorem recordVersion_again (now now' : Int) (tables : SqlTables) :
    recordVersion now' (recordVersion now tables) = recordVersion now tables := by
  funext name
  by_cases hname : name = "schema_migrations"
  · subst hname
    unfold recordVersion
    rw [Function.update_self, Function.update_self, Option.map_map]
    refine Option.map_congr fun t _ => if_pos ?_
    dsimp only
    split
    · assumption
    · rw [List.any_append, Bool.or_eq_true]
      exact .inr rfl
  · rw [recordVersion_of_ne _ _ hname]

/-- A migrated database has nothing to be migrated. -/
theorem migratedTables_again (now : Int) (tables : SqlTables) :
    migratedTables (recordVersion now (migratedTables tables)) =
      recordVersion now (migratedTables tables) := by
  funext name
  rw [migratedTables_apply]
  cases htable : migratedTables tables name with
  | none =>
    rw [(recordVersion_eq_none now).mpr htable]
    have hnone := htable
    rw [migratedTables_apply, Option.map_eq_none_iff, Option.or_eq_none_iff] at hnone
    rw [hnone.2]
    rfl
  | some t =>
    obtain ⟨t', hrecorded, hcolumns, -⟩ := recordVersion_apply now htable
    rw [hrecorded]
    refine congrArg some (Table.addColumns_of_mem fun c hc => ?_)
    rw [hcolumns]
    exact mem_columns_migratedTables htable hc

end Tables

/-! ## What `Migrate` does -/

section Run

variable {env : MigrationEnv} {db db' : SqlDatabase}

theorem bind_eq_ok {ε α β : Type} {x : Except ε α} {f : α → Except ε β} {b : β} :
    (x >>= f) = .ok b ↔ ∃ a, x = .ok a ∧ f a = .ok b := by
  cases x <;> simp [bind, Except.bind]

/-- A fold of steps that each do what a function says, or fail. -/
theorem foldlM_eq_ok {ε α β : Type} {step : β → α → Except ε β} {g : β → α → β}
    (hstep : ∀ b a b', step b a = .ok b' → b' = g b a) {l : List α} {b b' : β}
    (h : l.foldlM step b = .ok b') : b' = l.foldl g b := by
  induction l generalizing b with
  | nil =>
    cases h
    rfl
  | cons a l ih =>
    rw [List.foldlM_cons, bind_eq_ok] at h
    obtain ⟨next, hnext, hrest⟩ := h
    rw [List.foldl_cons, ← hstep b a next hnext]
    exact ih hrest

theorem addColumnIfMissing_ok {tables tables' : SqlTables} {m : ColumnMigration}
    (h : addColumnIfMissing env tables m = .ok tables') : tables' = alterTable tables m := by
  unfold addColumnIfMissing at h
  simp only [bind_eq_ok] at h
  obtain ⟨-, -, -, -, h⟩ := h
  split at h
  · cases h
  rename_i t htable
  split at h
  · -- the column is there
    rename_i hcolumn
    cases h
    unfold alterTable
    rw [htable, Option.map_some, Table.addColumn_of_mem hcolumn, ← htable, Function.update_eq_self]
  · simp only [bind_eq_ok] at h
    obtain ⟨-, -, h⟩ := h
    cases h
    rfl

/-- A transaction that commits has migrated the database. -/
theorem migrateTx_ok (h : migrateTx env db = .ok db') : db' = migrated env.now db := by
  unfold migrateTx at h
  simp only [bind_eq_ok] at h
  obtain ⟨-, -, base, hbase, columns, hcolumns, -, -, whole, hwhole, -, -, -, -, -, -, h⟩ := h
  have hbase' : base = createTables db.tables := by
    refine foldlM_eq_ok (fun tables entry tables' hstep => ?_) hbase
    simp only [bind_eq_ok] at hstep
    obtain ⟨-, -, hstep⟩ := hstep
    cases hstep
    rfl
  have hcolumns' : columns = migratedTables db.tables := by
    rw [migratedTables, ← hbase']
    exact foldlM_eq_ok (fun _ _ _ => addColumnIfMissing_ok) hcolumns
  have hwhole' : whole = migratedTables db.tables := by
    unfold execSchema at hwhole
    simp only [bind_eq_ok] at hwhole
    obtain ⟨-, -, hwhole⟩ := hwhole
    split at hwhole
    · cases hwhole
    · cases hwhole
      rw [hcolumns']
      exact createTables_of_isSome fun entry hentry => isSome_migratedTables _ hentry
  cases h
  rw [hwhole']
  rfl

/-- What `Migrate` leaves: the database as it was, with an error, or migrated. -/
theorem migrate_cases (env : MigrationEnv) (db : SqlDatabase) :
    (∃ error, migrate env db = (db, some error)) ∨
      db.userVersion ≤ schemaVersion ∧ migrate env db = (migrated env.now db, none) := by
  unfold migrate
  split
  · exact .inl ⟨_, rfl⟩
  split
  · exact .inl ⟨_, rfl⟩
  · rename_i hversion
    split
    · exact .inl ⟨_, rfl⟩
    · rename_i db' hok
      exact .inr ⟨Int.not_lt.mp hversion, by rw [migrateTx_ok hok]⟩

/-- A fold of steps that do what a function says as long as a property holds. -/
theorem foldlM_of_ok {ε α β : Type} {step : β → α → Except ε β} {g : β → α → β} {P : β → Prop}
    {l : List α} (hstep : ∀ b, ∀ a ∈ l, P b → step b a = .ok (g b a))
    (hkeep : ∀ b a, P b → P (g b a)) {b : β} (h : P b) : l.foldlM step b = .ok (l.foldl g b) := by
  induction l generalizing b with
  | nil => rfl
  | cons a l ih =>
    rw [List.foldlM_cons, hstep b a List.mem_cons_self h, List.foldl_cons]
    exact ih (fun b a ha => hstep b a (List.mem_cons_of_mem _ ha)) (hkeep b a h)

/-- Nothing keeps a statement from running. -/
def calmEnv (now : Int) : MigrationEnv := { now, fault := fun _ _ => none }

theorem run_calmEnv (now : Int) (message table : String) :
    (calmEnv now).run message table = .ok () := rfl

theorem addColumnIfMissing_calm (now : Int) {tables : SqlTables} {m : ColumnMigration}
    (hm : m ∈ columnMigrations) (htable : (tables m.table).isSome) :
    addColumnIfMissing (calmEnv now) tables m = .ok (alterTable tables m) := by
  have hident : ∀ m ∈ columnMigrations, sqliteIdent m.table = .ok () := by decide +kernel
  obtain ⟨t, htable⟩ := Option.isSome_iff_exists.mp htable
  have hok : ∃ tables', addColumnIfMissing (calmEnv now) tables m = .ok tables' := by
    simp only [addColumnIfMissing, hident m hm, run_calmEnv, htable]
    by_cases hcolumn : m.column ∈ t.columns
    · exact ⟨tables, if_pos hcolumn⟩
    · exact ⟨alterTable tables m, if_neg hcolumn⟩
  obtain ⟨tables', hok⟩ := hok
  rw [hok, addColumnIfMissing_ok hok]

/-- Nothing but the unique indexes keeps an older database from being migrated. -/
theorem migrate_calm (now : Int) (hversion : db.userVersion ≤ schemaVersion)
    (hunique : ∀ index ∈ uniqueIndexes,
      UniqueValues ((migratedTables db.tables).rows index.1) index.2) :
    migrate (calmEnv now) db = (migrated now db, none) := by
  have hbase : ensureBaseTables (calmEnv now) db.tables = .ok (createTables db.tables) :=
    foldlM_of_ok (P := fun _ => True) (fun _ _ _ _ => rfl) (fun _ _ _ => trivial) trivial
  have hpresent : ∀ m ∈ columnMigrations, m.table ∈ schema.map Prod.fst := by decide +kernel
  have hcolumns : migrateColumns (calmEnv now) (createTables db.tables) =
      .ok (migratedTables db.tables) := by
    refine foldlM_of_ok (P := fun tables => ∀ m ∈ columnMigrations, (tables m.table).isSome)
      (fun tables m hm htables => addColumnIfMissing_calm now hm (htables m hm))
      (fun tables m htables other hother => ?_) fun m hm => ?_
    · unfold alterTable
      by_cases hname : other.table = m.table
      · rw [hname, Function.update_self, Option.isSome_map, ← hname]
        exact htables other hother
      · rw [Function.update_of_ne hname]
        exact htables other hother
    · obtain ⟨entry, hentry, heq⟩ := List.mem_map.mp (hpresent m hm)
      have hmigrated := isSome_migratedTables db.tables hentry
      rw [migratedTables_apply, Option.isSome_map] at hmigrated
      rw [← heq, createTables, foldl_createTable]
      exact hmigrated
  have hwhole : execSchema (calmEnv now) (migratedTables db.tables) =
      .ok (migratedTables db.tables) := by
    have htables : createTables (migratedTables db.tables) = migratedTables db.tables :=
      createTables_of_isSome fun entry hentry => isSome_migratedTables _ hentry
    have hindexes : (uniqueIndexes.find? fun index =>
        ¬ UniqueValues ((migratedTables db.tables).rows index.1) index.2) = none := by
      refine List.find?_eq_none.mpr fun index hindex hviolated => ?_
      exact of_decide_eq_true hviolated (hunique index hindex)
    simp only [execSchema, run_calmEnv, htables]
    show (match uniqueIndexes.find? fun index =>
        ¬ UniqueValues ((migratedTables db.tables).rows index.1) index.2 with
      | some index => Except.error
          ("migrate sqlite: UNIQUE constraint failed: " ++ index.1 ++ "." ++ index.2)
      | none => .ok (migratedTables db.tables)) = _
    rw [hindexes]
  have htx : migrateTx (calmEnv now) db = .ok (migrated now db) := by
    refine bind_eq_ok.mpr ⟨(), rfl, bind_eq_ok.mpr ⟨_, hbase, bind_eq_ok.mpr ⟨_, hcolumns, ?_⟩⟩⟩
    exact bind_eq_ok.mpr ⟨(), rfl, bind_eq_ok.mpr ⟨_, hwhole, rfl⟩⟩
  unfold migrate
  show (if schemaVersion < db.userVersion then _ else _) = _
  rw [if_neg (Int.not_lt.mpr hversion), htx]

end Run

end CartoLive.Store
