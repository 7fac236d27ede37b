import CartoLive.Store.Projection
import CartoLive.Store.RouteCounts

/-!
# Repeated backfills

Backfills of a window add rows to `public_packet_paths` and change none: each
edge that has no row gets the row of its projection. Repeated often enough they
leave no edge of the window without one.

When every row, however it came to be there, reads as the projection of its edge
reads (`Finished`), a window without missing rows is read as from the edges
(`publicPacketPaths_finished`).
-/

namespace CartoLive.Store

open CartoLive.Lib CartoLive.Go CartoLive.Live

section Env

variable [LiveEnv]

@[simp] theorem observations_upsert (db : Database) (edge : EdgeEvent) :
    (db.upsertPublicRouteSummariesTx edge).observations = db.observations := by
  unfold Database.upsertPublicRouteSummariesTx
  split
  · rfl
  · dsimp only
    split <;> rfl

theorem edgeID_pathRow (edge : EdgeEvent) : (pathRow edge).edgeID = edge.id :=
  congrArg HistoryCursor.id (rowOf_insertPublicPacketPath edge).cursor

theorem heardAt_pathRow (edge : EdgeEvent) : (pathRow edge).heardAt = edge.heardAt :=
  congrArg HistoryCursor.heardAt (rowOf_insertPublicPacketPath edge).cursor

namespace PathDatabase

variable {db db' : PathDatabase} {now fromMs toMs : Int}

/-! ## One backfill -/

/-- The identifiers of the edges that have a row. -/
def rowIDs (db : PathDatabase) : List Int := db.packetPaths.map PacketPathRow.edgeID

omit [LiveEnv] in
theorem any_rows_iff (db : PathDatabase) (id : Int) :
    (db.packetPaths.any fun row => row.edgeID = id) = true ↔ id ∈ db.rowIDs := by
  simp [rowIDs, List.any_eq_true]

theorem packetPaths_insert (hnew : edge.id ∉ db.rowIDs) :
    (db.insertPublicPacketPathTx edge edge.iata).packetPaths = db.packetPaths ++ [pathRow edge] := by
  have hid : (insertPublicPacketPath edge edge.iata).edgeID = edge.id := edgeID_pathRow edge
  unfold insertPublicPacketPathTx
  dsimp only
  rw [hid, if_neg (mt (any_rows_iff db edge.id).mp hnew)]
  rfl

/-- The transaction of a backfill over edges without rows. -/
theorem backfillTx_spec {edges : List EdgeEvent} (hids : (edges.map EdgeEvent.id).Nodup)
    (hnew : ∀ edge ∈ edges, edge.id ∉ db.rowIDs) :
    (db.backfillPublicPacketPathsTx edges).packetPaths = db.packetPaths ++ edges.map pathRow ∧
      (db.backfillPublicPacketPathsTx edges).edges = db.edges ∧
      (db.backfillPublicPacketPathsTx edges).observations = db.observations := by
  induction edges generalizing db with
  | nil => exact ⟨(List.append_nil _).symm, rfl, rfl⟩
  | cons edge edges ih =>
    rw [List.map_cons, List.nodup_cons] at hids
    have hfirst : ((db.insertPublicPacketPathTx edge edge.iata).upsertPublicRouteSummariesTx
        edge).packetPaths = db.packetPaths ++ [pathRow edge] :=
      packetPaths_insert (hnew edge List.mem_cons_self)
    obtain ⟨hpaths, hedges, hobservations⟩ := @ih ((db.insertPublicPacketPathTx edge
      edge.iata).upsertPublicRouteSummariesTx edge) hids.2 fun e he => by
        rw [rowIDs, hfirst, List.map_append, List.mem_append, not_or]
        refine ⟨hnew e (List.mem_cons_of_mem _ he), fun heq => hids.1 ?_⟩
        rw [List.map_singleton, edgeID_pathRow, List.mem_singleton] at heq
        exact heq ▸ List.mem_map_of_mem he
    refine ⟨hpaths.trans ?_, hedges.trans ?_, hobservations.trans ?_⟩
    · rw [hfirst, List.append_assoc]
      rfl
    · simp
    · simp

/-- The edges of a window that have no row, in the order of the table. -/
def missing (db : PathDatabase) (now fromMs toMs : Int) : List EdgeEvent :=
  db.edges.filter fun edge =>
    decide (fromMs ≤ edge.heardAt) && decide (edge.heardAt ≤ boundedHistoryTo now toMs) &&
      !db.packetPaths.any fun row => row.edgeID = edge.id

omit [LiveEnv] in
theorem mem_missing {edge : EdgeEvent} :
    edge ∈ db.missing now fromMs toMs ↔ edge ∈ db.edges ∧
      (fromMs ≤ edge.heardAt ∧ edge.heardAt ≤ boundedHistoryTo now toMs) ∧
        edge.id ∉ db.rowIDs := by
  unfold missing
  rw [List.mem_filter, Bool.and_eq_true, Bool.and_eq_true, decide_eq_true_eq, decide_eq_true_eq,
    Bool.not_eq_true', ← Bool.not_eq_true, any_rows_iff]

omit [LiveEnv] in
/-- The projection is complete where no edge is missing. -/
theorem complete_iff :
    db.publicPacketPathProjectionComplete now fromMs toMs = true ↔
      db.missing now fromMs toMs = [] := by
  unfold publicPacketPathProjectionComplete missing
  rw [Bool.not_eq_true', List.any_eq_false, List.filter_eq_nil_iff]

omit [LiveEnv] in
/-- The edges that a backfill selects. -/
theorem mem_missingEdges {n : Nat} {edge : EdgeEvent}
    (h : edge ∈ db.publicPacketPathMissingEdges now fromMs toMs n) :
    ∃ stored ∈ db.missing now fromMs toMs, edge = db.toDatabase.joined stored := by
  obtain ⟨stored, hstored, rfl⟩ := List.mem_map.mp h
  exact ⟨stored, (List.mem_insertionSort _).mp (List.mem_of_mem_take hstored), rfl⟩

omit [LiveEnv] in
theorem nodup_missingEdges (hids : (db.edges.map EdgeEvent.id).Nodup) (now fromMs toMs : Int)
    (n : Nat) :
    ((db.publicPacketPathMissingEdges now fromMs toMs n).map EdgeEvent.id).Nodup := by
  have hsorted : (((db.missing now fromMs toMs).insertionSort Database.heardEdgeBefore).map
      EdgeEvent.id).Nodup := by
    refine (((List.perm_insertionSort _ _).map _).nodup_iff).mpr ?_
    exact hids.sublist (List.Sublist.map _ List.filter_sublist)
  have htaken := hsorted.sublist (List.Sublist.map EdgeEvent.id (List.take_sublist n _))
  unfold publicPacketPathMissingEdges
  rw [List.map_map]
  exact htaken

/-- Rows were added, each the projection of an edge that had none. -/
structure Backfilled (db db' : PathDatabase) : Prop where
  edges : db'.edges = db.edges
  observations : db'.observations = db.observations
  rows : ∃ more : List EdgeEvent, db'.packetPaths = db.packetPaths ++ more.map pathRow ∧
    (more.map EdgeEvent.id).Nodup ∧
      ∀ edge ∈ more, edge ∈ db.joinedEdges ∧ edge.id ∉ db.rowIDs

theorem Backfilled.refl (db : PathDatabase) : Backfilled db db :=
  ⟨rfl, rfl, [], (List.append_nil _).symm, List.nodup_nil, by simp⟩

theorem Backfilled.joined (h : Backfilled db db') (edge : EdgeEvent) :
    db'.toDatabase.joined edge = db.toDatabase.joined edge := by
  unfold Database.joined
  rw [h.observations]

theorem Backfilled.joinedEdges (h : Backfilled db db') : db'.joinedEdges = db.joinedEdges := by
  unfold Database.joinedEdges
  rw [h.edges]
  exact List.map_congr_left fun edge _ => h.joined edge

/-- A backfill adds rows. -/
theorem Backfilled.backfill (h : Backfilled db db') (hids : (db.edges.map EdgeEvent.id).Nodup)
    (now fromMs toMs limit : Int) :
    Backfilled db (db'.backfillPublicPacketPaths now fromMs toMs limit) := by
  have hids' : (db'.edges.map EdgeEvent.id).Nodup := h.edges.symm ▸ hids
  have hselected : ∀ edge ∈ db'.publicPacketPathMissingEdges now fromMs toMs
      (pathBackfillLimit limit), edge ∈ db'.joinedEdges ∧ edge.id ∉ db'.rowIDs := by
    intro edge hedge
    obtain ⟨stored, hstored, rfl⟩ := mem_missingEdges hedge
    obtain ⟨hmem, -, hnone⟩ := mem_missing.mp hstored
    exact ⟨List.mem_map_of_mem hmem, hnone⟩
  have hnodup := nodup_missingEdges hids' now fromMs toMs (pathBackfillLimit limit)
  obtain ⟨hpaths, hedges, hobservations⟩ := backfillTx_spec hnodup fun e he => (hselected e he).2
  obtain ⟨more, hrows, hmore, hall⟩ := h.rows
  refine ⟨hedges.trans h.edges, hobservations.trans h.observations,
    more ++ db'.publicPacketPathMissingEdges now fromMs toMs (pathBackfillLimit limit), ?_, ?_, ?_⟩
  · rw [backfillPublicPacketPaths, hpaths, hrows, List.map_append, List.append_assoc]
  · have hrowIDs : db'.rowIDs = db.rowIDs ++ more.map EdgeEvent.id := by
      rw [rowIDs, rowIDs, hrows, List.map_append, List.map_map]
      exact congrArg _ (List.map_congr_left fun edge _ => edgeID_pathRow edge)
    rw [List.map_append]
    refine hmore.append hnodup fun id hold hnew => ?_
    obtain ⟨edge, hedge, rfl⟩ := List.mem_map.mp hnew
    exact (hselected edge hedge).2 (hrowIDs ▸ List.mem_append_right _ hold)
  · intro edge hedge
    rcases List.mem_append.mp hedge with hold | hnew
    · exact hall edge hold
    · obtain ⟨hjoined, hnone⟩ := hselected edge hnew
      refine ⟨h.joinedEdges ▸ hjoined, fun hin => hnone ?_⟩
      rw [rowIDs, hrows, List.map_append]
      exact List.mem_append_left _ hin

/-! ## Repeated backfills -/

/-- Repeated backfills add rows until no edge is missing. -/
theorem backfilledUntil_spec {db₀ : PathDatabase} (h₀ : Backfilled db₀ db)
    (hids : (db₀.edges.map EdgeEvent.id).Nodup) (h : BackfilledUntil fromMs toMs now db db') :
    Backfilled db₀ db' ∧ db'.publicPacketPathProjectionComplete now fromMs toMs = true := by
  induction h with
  | done limit searchRemaining hremaining =>
    refine ⟨h₀.backfill hids .., ?_⟩
    unfold backfillRemaining at hremaining
    rw [Bool.or_eq_false_iff, Bool.not_eq_false'] at hremaining
    exact hremaining.1
  | again now' limit _ ih => exact ih (h₀.backfill hids ..)

/-- The edges that meet a condition and have no row. -/
def rowless (db : PathDatabase) (q : EdgeEvent → Bool) : List EdgeEvent :=
  db.edges.filter fun edge => q edge && !db.packetPaths.any fun row => row.edgeID = edge.id

/-- A backfill of a window that misses an edge leaves fewer edges without a row, among those of the
window and of all that meet a wider condition. -/
theorem length_rowless_backfill (hids : (db.edges.map EdgeEvent.id).Nodup) (limit : Int)
    {q : EdgeEvent → Bool}
    (hq : ∀ edge, fromMs ≤ edge.heardAt → edge.heardAt ≤ boundedHistoryTo now toMs → q edge = true)
    (h : db.missing now fromMs toMs ≠ []) :
    ((db.backfillPublicPacketPaths now fromMs toMs limit).rowless q).length <
      (db.rowless q).length := by
  have hbackfilled := (Backfilled.refl db).backfill hids now fromMs toMs limit
  have hnone : ∀ e ∈ db.publicPacketPathMissingEdges now fromMs toMs (pathBackfillLimit limit),
      e.id ∉ db.rowIDs := fun e he => by
    obtain ⟨stored, hstored, rfl⟩ := mem_missingEdges he
    exact (mem_missing.mp hstored).2.2
  obtain ⟨hpaths, -, -⟩ := backfillTx_spec
    (nodup_missingEdges hids now fromMs toMs (pathBackfillLimit limit)) hnone
  -- what is missing afterwards was missing before and was not selected
  have hrest : (db.backfillPublicPacketPaths now fromMs toMs limit).rowless q =
      (db.rowless q).filter fun edge =>
        edge.id ∉ (db.backfillPublicPacketPaths now fromMs toMs limit).rowIDs := by
    unfold rowless
    rw [hbackfilled.edges, List.filter_filter]
    refine List.filter_congr fun edge _ => ?_
    rw [Bool.eq_iff_iff]
    simp only [Bool.and_eq_true, decide_eq_true_eq, Bool.not_eq_true', ← Bool.not_eq_true,
      any_rows_iff]
    have hgrow : edge.id ∈ db.rowIDs →
        edge.id ∈ (db.backfillPublicPacketPaths now fromMs toMs limit).rowIDs := fun hin => by
      obtain ⟨more, hrows, -⟩ := hbackfilled.rows
      rw [rowIDs, hrows, List.map_append]
      exact List.mem_append_left _ hin
    tauto
  rw [hrest, List.length_filter_lt_length_iff_exists]
  have hsorted : (db.missing now fromMs toMs).insertionSort Database.heardEdgeBefore ≠ [] := by
    intro hnil
    have hperm := List.perm_insertionSort Database.heardEdgeBefore (db.missing now fromMs toMs)
    rw [hnil] at hperm
    exact h hperm.nil_eq.symm
  obtain ⟨first, others, hfirst⟩ := List.exists_cons_of_ne_nil hsorted
  have hmem := mem_missing.mp ((List.mem_insertionSort Database.heardEdgeBefore).mp
    (hfirst ▸ List.mem_cons_self : first ∈ (db.missing now fromMs toMs).insertionSort _))
  have hrowless : first ∈ db.rowless q := by
    refine List.mem_filter.mpr ⟨hmem.1, ?_⟩
    rw [Bool.and_eq_true, Bool.not_eq_true', ← Bool.not_eq_true, any_rows_iff]
    exact ⟨hq first hmem.2.1.1 hmem.2.1.2, hmem.2.2⟩
  refine ⟨first, hrowless, ?_⟩
  rw [decide_eq_true_eq, not_not, rowIDs, backfillPublicPacketPaths, hpaths, List.map_append]
  refine List.mem_append_right _ (List.mem_map.mpr ⟨pathRow (db.toDatabase.joined first), ?_,
    edgeID_pathRow _⟩)
  refine List.mem_map_of_mem (List.mem_map_of_mem ?_)
  show first ∈ ((db.missing now fromMs toMs).insertionSort Database.heardEdgeBefore).take
    (pathBackfillLimit limit)
  obtain ⟨n, hn⟩ : ∃ n, pathBackfillLimit limit = n + 1 :=
    ⟨pathBackfillLimit limit - 1, by unfold pathBackfillLimit; split <;> omega⟩
  rw [hfirst, hn]
  exact List.mem_cons_self

omit [LiveEnv] in
theorem missing_eq_rowless (db : PathDatabase) (now fromMs toMs : Int) :
    db.missing now fromMs toMs = db.rowless fun edge =>
      decide (fromMs ≤ edge.heardAt) && decide (edge.heardAt ≤ boundedHistoryTo now toMs) := rfl

/-- A backfill of a window that misses an edge has fewer to go. -/
theorem length_missing_backfill (hids : (db.edges.map EdgeEvent.id).Nodup) (limit : Int)
    (h : db.missing now fromMs toMs ≠ []) :
    ((db.backfillPublicPacketPaths now fromMs toMs limit).missing now fromMs toMs).length <
      (db.missing now fromMs toMs).length := by
  rw [missing_eq_rowless, missing_eq_rowless db]
  refine length_rowless_backfill hids limit (fun edge hfrom hto => ?_) h
  rw [decide_eq_true hfrom, decide_eq_true hto]
  rfl

/-- Backfills come to an end. -/
theorem exists_backfilledUntil (hids : (db.edges.map EdgeEvent.id).Nodup) (fromMs toMs now : Int) :
    ∃ db', BackfilledUntil fromMs toMs now db db' := by
  have key : ∀ n, ∀ db : PathDatabase, (db.edges.map EdgeEvent.id).Nodup →
      (db.missing now fromMs toMs).length ≤ n → ∃ db', BackfilledUntil fromMs toMs now db db' := by
    intro n
    induction n with
    | zero =>
      intro db hids hlength
      have hbackfilled := (Backfilled.refl db).backfill hids now fromMs toMs 0
      have hnone : (db.backfillPublicPacketPaths now fromMs toMs 0).missing now fromMs toMs = [] := by
        rw [List.eq_nil_iff_forall_not_mem]
        intro edge hedge
        obtain ⟨hmem, hwindow, hrow⟩ := mem_missing.mp hedge
        have hold : edge ∈ db.missing now fromMs toMs := by
          refine mem_missing.mpr ⟨hbackfilled.edges ▸ hmem, hwindow, fun hin => hrow ?_⟩
          obtain ⟨more, hrows, -⟩ := hbackfilled.rows
          rw [rowIDs, hrows, List.map_append]
          exact List.mem_append_left _ hin
        rw [List.length_eq_zero_iff.mp (Nat.le_zero.mp hlength)] at hold
        cases hold
      refine ⟨_, .done 0 false ?_⟩
      rw [backfillRemaining, complete_iff.mpr hnone]
      rfl
    | succ n ih =>
      intro db hids hlength
      by_cases hnil : db.missing now fromMs toMs = []
      · exact ih db hids (by rw [hnil]; exact Nat.zero_le n)
      · have hbackfilled := (Backfilled.refl db).backfill hids now fromMs toMs 0
        have hless := length_missing_backfill hids 0 hnil
        obtain ⟨db', hdb'⟩ := ih (db.backfillPublicPacketPaths now fromMs toMs 0)
          (hbackfilled.edges.symm ▸ hids) (by omega)
        exact ⟨db', .again now 0 hdb'⟩
  exact key _ db hids (le_refl _)

/-! ## Finished rows -/

/-- A row shows what the projection of an edge shows. -/
def ShowsEdge (row : PacketPathRow) (edge : EdgeEvent) : Prop :=
  row.mappable = (pathRow edge).mappable ∧
    (row.mappable = true →
      scanPublicPacketPathProjection row = scanPublicPacketPathProjection (pathRow edge))

theorem showsEdge_pathRow (edge : EdgeEvent) : ShowsEdge (pathRow edge) edge :=
  ⟨rfl, fun _ => rfl⟩

omit [LiveEnv] in
theorem rowCursor_of_scan_eq {row row' : PacketPathRow}
    (h : scanPublicPacketPathProjection row = scanPublicPacketPathProjection row') :
    rowCursor row = rowCursor row' := by
  have hheard : row.heardAt = row'.heardAt := congrArg PublicPacketPath.heardAt h
  have hid : row.edgeID = row'.edgeID := pulseID_inj (congrArg PublicPacketPath.id h)
  rw [rowCursor, rowCursor, hheard, hid]

/-- Every row shows what the projection of its edge shows. -/
def Finished (db : PathDatabase) : Prop :=
  ∀ row ∈ db.packetPaths, ∀ edge ∈ db.joinedEdges, edge.id = row.edgeID → ShowsEdge row edge

/-- Every row has an edge. -/
def RowsOfEdges (db : PathDatabase) : Prop :=
  ∀ row ∈ db.packetPaths, ∃ edge ∈ db.joinedEdges, edge.id = row.edgeID

/-- One identifier still belongs to one row. -/
theorem Backfilled.nodup (h : Backfilled db db') (hnodup : db.rowIDs.Nodup) : db'.rowIDs.Nodup := by
  obtain ⟨more, hrows, hmore, hall⟩ := h.rows
  have hids : (more.map pathRow).map PacketPathRow.edgeID = more.map EdgeEvent.id := by
    rw [List.map_map]
    exact List.map_congr_left fun edge _ => edgeID_pathRow edge
  rw [rowIDs, hrows, List.map_append, hids]
  refine hnodup.append hmore fun id hold hnew => ?_
  obtain ⟨edge, hedge, rfl⟩ := List.mem_map.mp hnew
  exact (hall edge hedge).2 hold

theorem Backfilled.rowsOfEdges (h : Backfilled db db') (hedges : db.RowsOfEdges) :
    db'.RowsOfEdges := by
  obtain ⟨more, hrows, -, hall⟩ := h.rows
  intro row hrow
  rw [h.joinedEdges]
  rcases List.mem_append.mp (hrows ▸ hrow) with hold | hnew
  · exact hedges row hold
  · obtain ⟨edge, hedge, rfl⟩ := List.mem_map.mp hnew
    exact ⟨edge, (hall edge hedge).1, (edgeID_pathRow edge).symm⟩

/-- Backfills leave finished rows finished. -/
theorem Backfilled.finished (h : Backfilled db db') (hids : (db.edges.map EdgeEvent.id).Nodup)
    (hfinished : db.Finished) : db'.Finished := by
  obtain ⟨more, hrows, -, hall⟩ := h.rows
  intro row hrow edge hedge hid
  rw [h.joinedEdges] at hedge
  rcases List.mem_append.mp (hrows ▸ hrow) with hold | hnew
  · exact hfinished row hold edge hedge hid
  · obtain ⟨other, hother, rfl⟩ := List.mem_map.mp hnew
    rw [edgeID_pathRow] at hid
    rw [Database.eq_of_id_eq hids hedge (hall other hother).1 hid]
    exact showsEdge_pathRow other

/-- A query for all packets of a window. -/
structure Unfiltered (query : PublicPacketPathQuery) : Prop where
  iata : query.iata = ""
  payloadTypeName : query.payloadTypeName = ""
  minHops : query.minHops ≤ 0
  messageOnly : query.messageOnly = false

variable {query : PublicPacketPathQuery}

omit [LiveEnv] in
theorem packetPathCondition_unfiltered (h : Unfiltered query) (row : PacketPathRow) :
    packetPathCondition now query row ↔ row.mappable = true ∧ query.fromMs ≤ row.heardAt ∧
      row.heardAt ≤ boundedHistoryTo now query.toMs := by
  have hempty : upperTrim "" = "" := upperTrim_empty
  have hhops : ¬ 0 < query.minHops := Int.not_lt.mpr h.minHops
  simp [packetPathCondition, h.iata, h.payloadTypeName, h.messageOnly, hempty, hhops]

/-- The row of the edge of a row. -/
def normalRow (db : PathDatabase) (row : PacketPathRow) : PacketPathRow :=
  ((db.joinedEdges.find? fun edge => edge.id = row.edgeID).map pathRow).getD row

theorem normalRow_eq (hedges : db.RowsOfEdges) {row : PacketPathRow}
    (hrow : row ∈ db.packetPaths) :
    ∃ edge ∈ db.joinedEdges, edge.id = row.edgeID ∧ db.normalRow row = pathRow edge := by
  obtain ⟨edge, hedge, hid⟩ := hedges row hrow
  cases hfind : db.joinedEdges.find? fun edge => edge.id = row.edgeID with
  | none =>
    have := List.find?_eq_none.mp hfind edge hedge
    simp [hid] at this
  | some found =>
    refine ⟨found, List.mem_of_find?_eq_some hfind, by simpa using List.find?_some hfind, ?_⟩
    rw [normalRow, hfind]
    rfl

omit [LiveEnv] in
/-- A change of the rows that a query does not notice. -/
theorem selectRows_map {newestFirst : Bool} {key : PacketPathRow → HistoryCursor}
    {f : PacketPathRow → PacketPathRow} {p : PacketPathRow → Prop} [DecidablePred p]
    {table : List PacketPathRow} (hp : ∀ row ∈ table, p (f row) ↔ p row)
    (hkey : ∀ row ∈ table, p row → key (f row) = key row) (cursor : Option HistoryCursor) :
    selectRows newestFirst key cursor p (table.map f) =
      (selectRows newestFirst key cursor p table).map f := by
  unfold selectRows
  rw [List.filter_map, ← List.map_insertionSort (r := rowOrder newestFirst key)]
  · congr 2
    refine List.filter_congr fun row hrow => Bool.eq_iff_iff.mpr ?_
    simp only [Function.comp_apply, decide_eq_true_eq]
    constructor
    · rintro ⟨hnew, hbeyond⟩
      have hold := (hp row hrow).mp hnew
      exact ⟨hold, hkey row hrow hold ▸ hbeyond⟩
    · rintro ⟨hold, hbeyond⟩
      exact ⟨(hp row hrow).mpr hold, (hkey row hrow hold).symm ▸ hbeyond⟩
  · intro a ha b hb
    have hkeys : ∀ row ∈ table.filter ((fun row => decide (p row ∧
        Beyond (HistoryCursor.Before newestFirst) cursor (key row))) ∘ f),
          key (f row) = key row := fun row hrow => by
      obtain ⟨hmem, hsel⟩ := List.mem_filter.mp hrow
      exact hkey row hmem ((hp row hmem).mp (of_decide_eq_true hsel).1)
    rw [rowOrder, rowOrder, hkeys a ha, hkeys b hb]

/-- The pages that a query gets from the edges. -/
def edgePages (db : Database) (now : Int) (query : PublicPacketPathQuery) :
    List PublicPacketPath × Option HistoryCursor :=
  let edges := rowsBeyond (HistoryCursor.Before query.newestFirst) edgeCursor query.cursor
    (selectRows query.newestFirst edgeCursor none
      (fun edge => packetPathCondition now query (pathRow edge)) db.joinedEdges)
  ((edges.take (packetPathLimit query.limit)).map fun edge =>
      scanPublicPacketPathProjection (pathRow edge),
    if packetPathLimit query.limit < edges.length then
      (edges.take (packetPathLimit query.limit)).getLast?.map edgeCursor else none)

theorem edgePages_congr {a b : Database} (h : a.joinedEdges = b.joinedEdges) (now : Int)
    (query : PublicPacketPathQuery) : edgePages a now query = edgePages b now query := by
  unfold edgePages
  rw [h]

/-- **Finished rows read like the edges**, where no edge of the window is without
a row. -/
theorem publicPacketPaths_finished (hids : (db.edges.map EdgeEvent.id).Nodup)
    (hnodup : db.rowIDs.Nodup) (hedges : db.RowsOfEdges) (hfinished : db.Finished)
    (hquery : Unfiltered query)
    (hcomplete : db.publicPacketPathProjectionComplete now query.fromMs query.toMs = true) :
    db.publicPacketPaths now query = edgePages db.toDatabase now query := by
  have hshows : ∀ row ∈ db.packetPaths,
      (db.normalRow row).edgeID = row.edgeID ∧ row.mappable = (db.normalRow row).mappable ∧
        (row.mappable = true → scanPublicPacketPathProjection row =
          scanPublicPacketPathProjection (db.normalRow row)) := by
    intro row hrow
    obtain ⟨edge, hedge, hid, hnormal⟩ := normalRow_eq hedges hrow
    rw [hnormal, edgeID_pathRow]
    exact ⟨hid, hfinished row hrow edge hedge hid⟩
  have hcondition : ∀ row ∈ db.packetPaths, packetPathCondition now query (db.normalRow row) ↔
      packetPathCondition now query row := by
    intro row hrow
    obtain ⟨-, hmappable, hscan⟩ := hshows row hrow
    rw [packetPathCondition_unfiltered hquery, packetPathCondition_unfiltered hquery, ← hmappable]
    refine and_congr_right fun h => ?_
    have hheard : row.heardAt = (db.normalRow row).heardAt :=
      congrArg PublicPacketPath.heardAt (hscan h)
    rw [hheard]
  have hcursor : ∀ row ∈ db.packetPaths, packetPathCondition now query row →
      rowCursor (db.normalRow row) = rowCursor row := fun row hrow h =>
    (rowCursor_of_scan_eq ((hshows row hrow).2.2
      ((packetPathCondition_unfiltered hquery row).mp h).1)).symm
  -- the rows of the edges in place of the rows there are
  let normal : PathDatabase := { db with packetPaths := db.packetPaths.map db.normalRow }
  have hmade : normal.ProjectionMade := by
    refine ⟨?_, fun row hrow => ?_⟩
    · show ((db.packetPaths.map db.normalRow).map PacketPathRow.edgeID).Nodup
      rw [List.map_map]
      have hmap : db.packetPaths.map (PacketPathRow.edgeID ∘ db.normalRow) = db.rowIDs :=
        List.map_congr_left fun row hrow => (hshows row hrow).1
      rw [hmap]
      exact hnodup
    · obtain ⟨old, hold, rfl⟩ := List.mem_map.mp hrow
      obtain ⟨edge, hedge, -, hnormal⟩ := normalRow_eq hedges hold
      exact ⟨edge, hedge, hnormal⟩
  have hrows : ∀ edge ∈ normal.joinedEdges, packetPathCondition now query (pathRow edge) →
      ∃ row ∈ normal.packetPaths, row.edgeID = edge.id := by
    intro edge hedge h
    obtain ⟨-, hfrom, hto⟩ := (packetPathCondition_unfiltered hquery _).mp h
    rw [heardAt_pathRow] at hfrom hto
    obtain ⟨row, hrow, hid⟩ := exists_row_of_complete hcomplete hedge hfrom hto
    exact ⟨db.normalRow row, List.mem_map_of_mem hrow, (hshows row hrow).1.trans hid⟩
  have hnormal : normal.publicPacketPaths now query = edgePages db.toDatabase now query :=
    @publicPacketPaths_eq _ normal hids hmade now query hrows _ rfl
  rw [← hnormal]
  unfold publicPacketPaths
  dsimp only
  rw [show normal.packetPaths = db.packetPaths.map db.normalRow from rfl,
    selectRows_map hcondition hcursor, ← List.map_take, ← List.map_take, List.map_map,
    List.getLast?_map, Option.map_map, List.length_map]
  have hselected : ∀ row ∈ ((selectRows query.newestFirst rowCursor query.cursor
      (packetPathCondition now query) db.packetPaths).take (packetPathLimit query.limit + 1)).take
        (packetPathLimit query.limit),
      row ∈ db.packetPaths ∧ packetPathCondition now query row := fun row hrow => by
    obtain ⟨hmem, h, -⟩ := mem_selectRows.mp (List.mem_of_mem_take (List.mem_of_mem_take hrow))
    exact ⟨hmem, h⟩
  congr 1
  · refine List.map_congr_left fun row hrow => ?_
    obtain ⟨hmem, h⟩ := hselected row hrow
    exact (hshows row hmem).2.2 ((packetPathCondition_unfiltered hquery row).mp h).1
  · split
    · refine Option.map_congr fun row hrow => ?_
      obtain ⟨hmem, h⟩ := hselected row (List.mem_of_getLast? hrow)
      exact (hcursor row hmem h).symm
    · rfl

/-! ## What the pages tell of the rows -/

omit [LiveEnv] in
/-- A row that a window shows is found on the page behind the cursor just before
it, so that whoever gives the same pages has a row that shows the same. -/
theorem exists_row_of_same_pages {p q : PathDatabase} (hnodup : p.rowIDs.Nodup)
    (hsame : ∀ query, Unfiltered query → query.fromMs = fromMs → query.toMs = toMs →
      p.publicPacketPaths now query = q.publicPacketPaths now query)
    {row : PacketPathRow} (hrow : row ∈ p.packetPaths) (hmappable : row.mappable = true)
    (hfrom : fromMs ≤ row.heardAt) (hto : row.heardAt ≤ boundedHistoryTo now toMs) :
    ∃ row' ∈ q.packetPaths, row'.mappable = true ∧
      scanPublicPacketPathProjection row' = scanPublicPacketPathProjection row := by
  let query : PublicPacketPathQuery :=
    { fromMs, toMs, limit := 1
      cursor := some { heardAt := row.heardAt, typeOrder := 2, id := row.edgeID + 1 }
      newestFirst := true, iata := "", payloadTypeName := "", minHops := 0, messageOnly := false }
  have hquery : Unfiltered query := ⟨rfl, rfl, le_refl 0, rfl⟩
  have hfound : row ∈ selectRows true rowCursor query.cursor (packetPathCondition now query)
      p.packetPaths := by
    refine mem_selectRows.mpr ⟨hrow, (packetPathCondition_unfiltered hquery row).mpr
      ⟨hmappable, hfrom, hto⟩, ?_⟩
    intro c hc
    cases hc
    exact .inr ⟨rfl, Int.lt_succ _⟩
  have hkeys : (p.packetPaths.map fun row => (rowCursor row).id).Nodup := hnodup
  have hsorted : (selectRows true rowCursor query.cursor (packetPathCondition now query)
      p.packetPaths).Pairwise fun a b => HistoryCursor.Before true (rowCursor a) (rowCursor b) :=
    pairwise_selectRows (fun _ _ => rfl) hkeys query.cursor (packetPathCondition now query)
  have hpages := congrArg Prod.fst (hsame query hquery rfl rfl)
  simp only [publicPacketPaths] at hpages
  have hlimit : packetPathLimit query.limit = 1 := rfl
  rw [hlimit, List.take_take, List.take_take] at hpages
  -- the first row behind the cursor is the row
  cases hfirst : selectRows true rowCursor query.cursor (packetPathCondition now query)
      p.packetPaths with
  | nil =>
    rw [hfirst] at hfound
    cases hfound
  | cons first rest =>
    have hbehind := (mem_selectRows.mp (hfirst ▸ List.mem_cons_self :
      first ∈ selectRows true rowCursor query.cursor (packetPathCondition now query)
        p.packetPaths)).2.2 _ rfl
    rw [hfirst] at hfound hsorted hpages
    have hrow : first = row := by
      rcases List.mem_cons.mp hfound with heq | hlater
      · exact heq.symm
      · have hbefore := (List.pairwise_cons.mp hsorted).1 row hlater
        simp only [HistoryCursor.Before, HistoryCursor.Older, rowCursor, if_true] at hbefore hbehind
        omega
    subst hrow
    cases hother : selectRows true rowCursor query.cursor (packetPathCondition now query)
        q.packetPaths with
    | nil =>
      rw [hother] at hpages
      simp at hpages
    | cons row' rest' =>
      rw [hother] at hpages
      obtain ⟨hmem, hcondition, -⟩ := mem_selectRows.mp (hother ▸ List.mem_cons_self :
        row' ∈ selectRows true rowCursor query.cursor (packetPathCondition now query) q.packetPaths)
      refine ⟨row', hmem, ((packetPathCondition_unfiltered hquery row').mp hcondition).1, ?_⟩
      simpa using hpages.symm

end PathDatabase

end Env

end CartoLive.Store
