import CartoLive.Store.Backfill

/-!
# The search index of the packet paths

`public_packet_paths` with its column `search_text` and the full-text index over
it, which triggers of `schema.sql` keep and `syncPublicPacketPathSearchIndex`
completes, and with these `BackfillPublicPacketPaths` as a whole
(`public_packet_paths.go`). An edge comes with the segments that the decoder
leaves in it, none or some of them where the JSON cannot be read. A call reads
the clock once; a transaction that breaks a constraint is `none`.
-/

namespace CartoLive.Store

open CartoLive.Lib CartoLive.Go CartoLive.Live

section Env

variable [LiveEnv]

/-! ## Search texts -/

omit [LiveEnv] in
/-- `publicPacketPathSearchText`. -/
def publicPacketPathSearchText (packet : PublicPacketPath) : String :=
  toLower (" ".intercalate
    ([packet.id, packet.iata, packet.region, packet.payloadTypeName, packet.messageSender,
        packet.messageText] ++ packet.routeIDs ++ packet.endpointLabels ++
      packet.segments.flatMap fun segment =>
        [segment.routeID, segment.source.label, segment.source.pathHash3, segment.target.label,
          segment.target.pathHash3]))

/-- The text that `insertPublicPacketPathTx` writes for an edge. -/
def projectedSearchText (edge : EdgeEvent) (region : String) : String :=
  let edge := { edge with iata := upperTrim region }
  match publicPacketPath edge [] with
  | none => ""
  | some packet =>
    publicPacketPathSearchText
      { packet with id := pulseID edge.id, iata := edge.iata, region := edge.iata }

/-- The projection with the texts of its rows, and the rows that the index has an entry for. -/
structure IndexedDatabase extends PathDatabase where
  searchText : Int → String
  searchIndex : List Int

namespace IndexedDatabase

/-! ## Writes -/

/-- `insertPublicPacketPathTx` with the triggers of the table: whether the edge is mappable. The
index cannot have two entries for a row. -/
def insertPublicPacketPathTx (db : IndexedDatabase) (edge : EdgeEvent) (region : String) :
    Option (Bool × IndexedDatabase) :=
  let row := insertPublicPacketPath edge region
  let written : IndexedDatabase :=
    { db.toPathDatabase.insertPublicPacketPathTx edge region with
      searchText := fun id =>
        if id = row.edgeID then projectedSearchText edge region else db.searchText id
      searchIndex := db.searchIndex }
  if row.edgeID ∈ db.rowIDs then
    -- `public_packet_paths_au`
    some (row.mappable, { written with
      searchIndex := (db.searchIndex.filter fun id => id ≠ row.edgeID) ++ [row.edgeID] })
  else if row.edgeID ∈ db.searchIndex then none
  else
    -- `public_packet_paths_ai`
    some (row.mappable, { written with searchIndex := db.searchIndex ++ [row.edgeID] })

def upsertPublicRouteSummariesTx (db : IndexedDatabase) (edge : EdgeEvent) : IndexedDatabase :=
  { db with toPathDatabase := db.toPathDatabase.upsertPublicRouteSummariesTx edge }

/-- An edge in the transaction of `BackfillPublicPacketPaths`, with the mappable ones so far. -/
def backfillEdge (state : Nat × IndexedDatabase) (edge : EdgeEvent) :
    Option (Nat × IndexedDatabase) :=
  (state.2.insertPublicPacketPathTx edge edge.iata).map fun written =>
    (if written.1 then state.1 + 1 else state.1, written.2.upsertPublicRouteSummariesTx edge)

omit [LiveEnv] in
/-- The rows of a window that search would miss. -/
def unsearchable (db : IndexedDatabase) (now fromMs toMs : Int) : List PacketPathRow :=
  db.packetPaths.filter fun row =>
    row.mappable && db.searchText row.edgeID ≠ "" && decide (fromMs ≤ row.heardAt) &&
      decide (row.heardAt ≤ boundedHistoryTo now toMs) && row.edgeID ∉ db.searchIndex

omit [LiveEnv] in
/-- `syncPublicPacketPathSearchIndex`: how many rows it has indexed, and whether some remain. -/
def syncPublicPacketPathSearchIndex (db : IndexedDatabase) (now fromMs toMs limit : Int) :
    (Nat × Bool) × IndexedDatabase :=
  let missing := ((db.unsearchable now fromMs toMs).insertionSort (rowOrder true rowCursor)).take
    (PathDatabase.pathBackfillLimit limit)
  if missing = [] then ((0, false), db)
  else
    let synced : IndexedDatabase :=
      { db with
        -- `INSERT OR REPLACE`
        searchIndex := missing.foldl
          (fun index row => (index.filter fun id => id ≠ row.edgeID) ++ [row.edgeID])
          db.searchIndex }
    ((missing.length, decide (synced.unsearchable now fromMs toMs ≠ [])), synced)

/-- `PublicPacketPathBackfillResult`. -/
structure BackfillResult where
  scanned : Nat
  projected : Nat
  mappable : Nat
  nonMappable : Nat
  searchIndexed : Nat
  searchIndexRemaining : Bool
  remaining : Bool
  deriving DecidableEq

/-- `BackfillPublicPacketPaths`. -/
def backfillPublicPacketPaths (db : IndexedDatabase) (now fromMs toMs limit : Int) :
    Option (BackfillResult × IndexedDatabase) :=
  let edges := db.publicPacketPathMissingEdges now fromMs toMs
    (PathDatabase.pathBackfillLimit limit)
  (edges.foldlM backfillEdge (0, db)).map fun written =>
    let synced := written.2.syncPublicPacketPathSearchIndex now fromMs toMs limit
    ({ scanned := edges.length
       projected := edges.length
       mappable := written.1
       nonMappable := edges.length - written.1
       searchIndexed := synced.1.1
       searchIndexRemaining := synced.1.2
       remaining := !synced.2.publicPacketPathProjectionComplete now fromMs toMs || synced.1.2 },
      synced.2)

/-! ## Keys -/

/-- The primary keys of the tables, and an index that has entries of rows only: a row takes its
entry with it. -/
structure Keyed (db : IndexedDatabase) : Prop where
  edges : (db.edges.map EdgeEvent.id).Nodup
  rows : db.rowIDs.Nodup
  index : ∀ id ∈ db.searchIndex, id ∈ db.rowIDs

variable {db db' : IndexedDatabase} {now fromMs toMs : Int}

/-- A new row gets its entry. -/
theorem insert_spec {edge : EdgeEvent} (hindex : ∀ id ∈ db.searchIndex, id ∈ db.rowIDs)
    (hnew : edge.id ∉ db.rowIDs) :
    ∃ mappable db', db.insertPublicPacketPathTx edge edge.iata = some (mappable, db') ∧
      db'.toPathDatabase = db.toPathDatabase.insertPublicPacketPathTx edge edge.iata ∧
      db'.searchIndex = db.searchIndex ++ [edge.id] := by
  have hid : (insertPublicPacketPath edge edge.iata).edgeID = edge.id :=
    edgeID_pathRow edge
  unfold insertPublicPacketPathTx
  dsimp only
  rw [hid, if_neg hnew, if_neg fun hin => hnew (hindex _ hin)]
  exact ⟨_, _, rfl, rfl, rfl⟩

/-- The transaction of a backfill over edges without rows commits: its rows are those of the
projection, and each has an entry. -/
theorem backfillEdges_spec {edges : List EdgeEvent} (mappable : Nat)
    (hindex : ∀ id ∈ db.searchIndex, id ∈ db.rowIDs) (hids : (edges.map EdgeEvent.id).Nodup)
    (hnew : ∀ edge ∈ edges, edge.id ∉ db.rowIDs) :
    ∃ mappable' db', edges.foldlM backfillEdge (mappable, db) = some (mappable', db') ∧
      db'.toPathDatabase = db.toPathDatabase.backfillPublicPacketPathsTx edges ∧
      db'.searchIndex = db.searchIndex ++ edges.map EdgeEvent.id := by
  induction edges generalizing mappable db with
  | nil => exact ⟨mappable, db, rfl, rfl, (List.append_nil _).symm⟩
  | cons edge edges ih =>
    rw [List.map_cons, List.nodup_cons] at hids
    have hfirst := hnew edge List.mem_cons_self
    obtain ⟨found, written, hwritten, hpaths, hentries⟩ := insert_spec hindex hfirst
    have hrowIDs : (written.upsertPublicRouteSummariesTx edge).rowIDs = db.rowIDs ++ [edge.id] := by
      show written.packetPaths.map PacketPathRow.edgeID = _
      rw [hpaths, PathDatabase.packetPaths_insert hfirst, List.map_append, List.map_singleton,
        edgeID_pathRow]
      rfl
    obtain ⟨mappable', db', hrest, hpaths', hentries'⟩ :=
      @ih (written.upsertPublicRouteSummariesTx edge) (if found then mappable + 1 else mappable)
        (fun id hid => by
          rw [hrowIDs]
          change id ∈ written.searchIndex at hid
          rw [hentries] at hid
          exact (List.mem_append.mp hid).elim
            (fun hold => List.mem_append_left _ (hindex id hold)) (List.mem_append_right _))
        hids.2
        (fun other hother hin => by
          rw [hrowIDs] at hin
          rcases List.mem_append.mp hin with hold | hlast
          · exact hnew other (List.mem_cons_of_mem _ hother) hold
          · exact hids.1 (List.mem_singleton.mp hlast ▸ List.mem_map_of_mem hother))
    refine ⟨mappable', db', ?_, hpaths'.trans ?_, hentries'.trans ?_⟩
    · rw [List.foldlM_cons, backfillEdge, hwritten]
      exact hrest
    · show (written.toPathDatabase.upsertPublicRouteSummariesTx edge).backfillPublicPacketPathsTx
        edges = _
      rw [hpaths]
      rfl
    · show written.searchIndex ++ _ = _
      rw [hentries, List.append_assoc]
      rfl

/-! ## Progress -/

omit [LiveEnv] in
/-- The mappable rows without an entry. -/
def unindexed (db : IndexedDatabase) : List PacketPathRow :=
  db.packetPaths.filter fun row => row.mappable && row.edgeID ∉ db.searchIndex

omit [LiveEnv] in
theorem mem_replaced {rows : List PacketPathRow} {index : List Int} {id : Int} :
    id ∈ rows.foldl (fun index row => (index.filter fun id => id ≠ row.edgeID) ++ [row.edgeID])
        index ↔ id ∈ index ∨ id ∈ rows.map PacketPathRow.edgeID := by
  induction rows generalizing index with
  | nil => simp
  | cons row rows ih =>
    rw [List.foldl_cons, ih, List.mem_append, List.mem_filter, List.mem_singleton, List.map_cons,
      List.mem_cons, decide_eq_true_eq]
    tauto

omit [LiveEnv] in
/-- An index with more entries leaves fewer rows without one. -/
theorem unindexed_of_index (hrows : db'.packetPaths = db.packetPaths)
    (hgrow : ∀ id ∈ db.searchIndex, id ∈ db'.searchIndex) :
    db'.unindexed = db.unindexed.filter fun row => row.edgeID ∉ db'.searchIndex := by
  unfold unindexed
  rw [hrows, List.filter_filter]
  refine List.filter_congr fun row _ => ?_
  rw [Bool.eq_iff_iff]
  simp only [Bool.and_eq_true, decide_eq_true_eq]
  have := hgrow row.edgeID
  tauto

omit [LiveEnv] in
/-- The synchronization adds entries of rows, and some if it reports that rows remain. -/
theorem sync_spec (db : IndexedDatabase) (now fromMs toMs limit : Int) :
    (db.syncPublicPacketPathSearchIndex now fromMs toMs limit).2.toPathDatabase =
        db.toPathDatabase ∧
      (∀ id ∈ (db.syncPublicPacketPathSearchIndex now fromMs toMs limit).2.searchIndex,
        id ∈ db.searchIndex ∨ id ∈ db.rowIDs) ∧
      (db.syncPublicPacketPathSearchIndex now fromMs toMs limit).2.unindexed.length ≤
        db.unindexed.length ∧
      ((db.syncPublicPacketPathSearchIndex now fromMs toMs limit).1.2 = true →
        (db.syncPublicPacketPathSearchIndex now fromMs toMs limit).2.unindexed.length <
          db.unindexed.length) := by
  unfold syncPublicPacketPathSearchIndex
  dsimp only
  split
  · exact ⟨rfl, fun id hid => .inl hid, le_refl _, nofun⟩
  · rename_i hsome
    generalize hmissing : ((db.unsearchable now fromMs toMs).insertionSort
      (rowOrder true rowCursor)).take (PathDatabase.pathBackfillLimit limit) = missing at hsome ⊢
    have hsub : ∀ row ∈ missing, row ∈ db.unsearchable now fromMs toMs := fun row hrow =>
      (List.mem_insertionSort _).mp (List.mem_of_mem_take (hmissing ▸ hrow))
    have hrows : ∀ row ∈ missing, row ∈ db.packetPaths := fun row hrow =>
      (List.mem_filter.mp (hsub row hrow)).1
    generalize hindex : missing.foldl
      (fun index row => (index.filter fun id => id ≠ row.edgeID) ++ [row.edgeID])
      db.searchIndex = index
    have hmem : ∀ id, id ∈ index ↔ id ∈ db.searchIndex ∨ id ∈ missing.map PacketPathRow.edgeID :=
      fun id => hindex ▸ mem_replaced
    have hrest : ({ db with searchIndex := index } : IndexedDatabase).unindexed =
        db.unindexed.filter fun row => row.edgeID ∉ index :=
      unindexed_of_index rfl fun id hid => (hmem id).mpr (.inl hid)
    refine ⟨rfl, fun id hid => ?_, ?_, fun _ => ?_⟩
    · refine ((hmem id).mp hid).imp_right fun hnew => ?_
      obtain ⟨row, hrow, rfl⟩ := List.mem_map.mp hnew
      exact List.mem_map_of_mem (hrows row hrow)
    · rw [hrest]
      exact List.length_filter_le ..
    · -- the first row of the batch had no entry and has one now
      obtain ⟨row, hrow⟩ := List.exists_mem_of_ne_nil _ hsome
      obtain ⟨hstored, hcond⟩ := List.mem_filter.mp (hsub row hrow)
      simp only [Bool.and_eq_true] at hcond
      rw [hrest, List.length_filter_lt_length_iff_exists]
      refine ⟨row, List.mem_filter.mpr ⟨hstored, ?_⟩, ?_⟩
      · rw [Bool.and_eq_true]
        exact ⟨hcond.1.1.1.1, hcond.2⟩
      · rw [decide_eq_true_eq, not_not]
        exact (hmem _).mpr (.inr (List.mem_map_of_mem hrow))

/-- Rows that the transaction adds come with their entries. -/
theorem unindexed_backfilled {edges : List EdgeEvent}
    (hnew : ∀ edge ∈ edges, edge.id ∉ db.rowIDs)
    (hrows : db'.packetPaths = db.packetPaths ++ edges.map pathRow)
    (hindex : db'.searchIndex = db.searchIndex ++ edges.map EdgeEvent.id) :
    db'.unindexed = db.unindexed := by
  unfold unindexed
  rw [hrows, hindex, List.filter_append]
  have hadded : (edges.map pathRow).filter (fun row => row.mappable &&
      row.edgeID ∉ db.searchIndex ++ edges.map EdgeEvent.id) = [] := by
    rw [List.filter_eq_nil_iff]
    intro row hrow hcond
    obtain ⟨edge, hedge, rfl⟩ := List.mem_map.mp hrow
    rw [Bool.and_eq_true, decide_eq_true_eq, edgeID_pathRow] at hcond
    exact hcond.2 (List.mem_append_right _ (List.mem_map_of_mem hedge))
  rw [hadded, List.append_nil]
  refine List.filter_congr fun row hrow => ?_
  have hother : row.edgeID ∉ edges.map EdgeEvent.id := by
    intro hin
    obtain ⟨edge, hedge, hid⟩ := List.mem_map.mp hin
    exact hnew edge hedge (hid ▸ List.mem_map_of_mem hrow)
  rw [Bool.eq_iff_iff]
  simp only [Bool.and_eq_true, decide_eq_true_eq, List.mem_append]
  tauto

omit [LiveEnv] in
/-- The synchronization keeps the keys. -/
theorem Keyed.sync (h : Keyed db) (now fromMs toMs limit : Int) :
    Keyed (db.syncPublicPacketPathSearchIndex now fromMs toMs limit).2 := by
  obtain ⟨hsame, hindex, -, -⟩ := db.sync_spec now fromMs toMs limit
  constructor
  · rw [hsame]
    exact h.edges
  · rw [hsame]
    exact h.rows
  · intro id hid
    rw [hsame]
    exact (hindex id hid).elim (h.index id) (fun hrow => hrow)

/-- The transaction over the missing edges of a window commits, with an entry for each row. -/
theorem exists_committed (h : Keyed db) (now fromMs toMs limit : Int) :
    ∃ mappable written,
      (db.publicPacketPathMissingEdges now fromMs toMs
        (PathDatabase.pathBackfillLimit limit)).foldlM backfillEdge (0, db) =
          some (mappable, written) ∧
      written.toPathDatabase = db.toPathDatabase.backfillPublicPacketPaths now fromMs toMs limit ∧
      Keyed written ∧ written.unindexed = db.unindexed := by
  have hnew : ∀ edge ∈ db.publicPacketPathMissingEdges now fromMs toMs
      (PathDatabase.pathBackfillLimit limit), edge.id ∉ db.rowIDs := fun edge hedge => by
    obtain ⟨stored, hstored, rfl⟩ := PathDatabase.mem_missingEdges hedge
    exact (PathDatabase.mem_missing.mp hstored).2.2
  have hids := PathDatabase.nodup_missingEdges h.edges now fromMs toMs
    (PathDatabase.pathBackfillLimit limit)
  obtain ⟨mappable, written, hwritten, hpaths, hentries⟩ := backfillEdges_spec 0 h.index hids hnew
  have hbackfilled : PathDatabase.Backfilled db.toPathDatabase written.toPathDatabase :=
    hpaths ▸ (PathDatabase.Backfilled.refl _).backfill h.edges now fromMs toMs limit
  obtain ⟨hrows, -, -⟩ := PathDatabase.backfillTx_spec hids hnew
  rw [← hpaths] at hrows
  refine ⟨mappable, written, hwritten, hpaths, ?_, unindexed_backfilled hnew hrows hentries⟩
  constructor
  · rw [hbackfilled.edges]
    exact h.edges
  · exact hbackfilled.nodup h.rows
  · intro id hid
    rw [hentries] at hid
    rw [PathDatabase.rowIDs, hrows, List.map_append, List.map_map]
    rcases List.mem_append.mp hid with hold | hentry
    · exact List.mem_append_left _ (h.index id hold)
    · obtain ⟨edge, hedge, rfl⟩ := List.mem_map.mp hentry
      exact List.mem_append_right _ (List.mem_map.mpr ⟨edge, hedge, edgeID_pathRow edge⟩)

omit [LiveEnv] in
/-- A window that misses no edge has none to select. -/
theorem missingEdges_of_complete {p : PathDatabase} (h : p.missing now fromMs toMs = []) (n : Nat) :
    p.publicPacketPathMissingEdges now fromMs toMs n = [] := by
  have hnil : (p.missing now fromMs toMs).insertionSort Database.heardEdgeBefore = [] := by
    rw [h]
    rfl
  unfold PathDatabase.missing at hnil
  rw [PathDatabase.publicPacketPathMissingEdges, hnil, List.take_nil, List.map_nil]

/-- What a call of `BackfillPublicPacketPaths` leaves, where `q` holds of the edges of its window. -/
structure Called (q : EdgeEvent → Bool) (now fromMs toMs : Int) (db : IndexedDatabase)
    (result : BackfillResult) (db' : IndexedDatabase) : Prop where
  keyed : Keyed db'
  edges : db'.edges = db.edges
  progress : result.remaining = true →
    (db'.rowless q).length + db'.unindexed.length < (db.rowless q).length + db.unindexed.length
  complete : result.remaining = false →
    db'.publicPacketPathProjectionComplete now fromMs toMs = true

/-- A call succeeds, and one that reports work left has done some. -/
theorem exists_called (h : Keyed db) (now fromMs toMs limit : Int) {q : EdgeEvent → Bool}
    (hq : ∀ edge, fromMs ≤ edge.heardAt → edge.heardAt ≤ boundedHistoryTo now toMs →
      q edge = true) :
    ∃ result db', db.backfillPublicPacketPaths now fromMs toMs limit = some (result, db') ∧
      Called q now fromMs toMs db result db' := by
  obtain ⟨mappable, written, hwritten, hpaths, hkeyed, hunindexed⟩ :=
    exists_committed h now fromMs toMs limit
  have hedges : written.edges = db.edges :=
    ((PathDatabase.Backfilled.refl _).backfill h.edges now fromMs toMs limit).edges ▸
      congrArg (fun p : PathDatabase => p.edges) hpaths
  obtain ⟨hsame, -, hfewer, hless⟩ := written.sync_spec now fromMs toMs limit
  have hsynced := hkeyed.sync now fromMs toMs limit
  rw [hunindexed] at hfewer hless
  refine ⟨_, _, by rw [backfillPublicPacketPaths, hwritten]; rfl, hsynced, ?_, ?_, ?_⟩
  · exact (congrArg (fun p : PathDatabase => p.edges) hsame).trans hedges
  · intro hremaining
    dsimp only at hremaining
    rw [hsame] at hremaining ⊢
    rw [hpaths] at hremaining ⊢
    by_cases hmissing : db.missing now fromMs toMs = []
    · -- nothing was missing, so it is the index that is not complete
      have hunchanged : db.toPathDatabase.backfillPublicPacketPaths now fromMs toMs limit =
          db.toPathDatabase := by
        rw [PathDatabase.backfillPublicPacketPaths, missingEdges_of_complete hmissing]
        rfl
      rw [hunchanged] at hremaining ⊢
      rw [PathDatabase.complete_iff.mpr hmissing] at hremaining
      have := hless hremaining
      omega
    · have := PathDatabase.length_rowless_backfill h.edges limit hq hmissing
      omega
  · intro hremaining
    dsimp only at hremaining
    rw [Bool.or_eq_false_iff, Bool.not_eq_false'] at hremaining
    exact hremaining.1

end IndexedDatabase

end Env

end CartoLive.Store
