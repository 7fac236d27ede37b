import CartoLive.Api.PublicHistory
import CartoLive.App.Backend

/-!
# Following the history cursor

A client that follows the cursors of `publicHistory` from page to page gets the
routed events of its window, oldest first and each once, whichever of its pages
are made from the packet-path projection and whichever from the stored edges,
if and only if none of these events was heard at a time of zero or below
(`history_enumerates_iff`).

Both loops are read as answers about one listing of edges. They differ in one
row: `publicRoutePulseFromPacketPath` passes over a path without a positive time,
which the loop over the edges does not ask for (`event_at_zero_left_out`).
-/

namespace CartoLive.Theorems.HistoryPages

open CartoLive.Lib CartoLive.Go CartoLive.Live CartoLive.Store CartoLive.Api

/-- How an event appears on a page: with its time and its identifier. -/
def eventEntry (event : PublicHistoryEvent) : Int × String :=
  (event.heardAt, match event.data with
    | .node node => node.id
    | .activity activity => activity.id
    | .pulse pulse => pulse.id)

section Env

variable [LiveEnv]

/-- An edge of an allowed region that is on the map. -/
def Routed (filter : PublicIATAFilter) (edge : EdgeEvent) : Prop :=
  filter.allows edge.iata = true ∧ mappableSegments edge ≠ []

instance (filter : PublicIATAFilter) : DecidablePred (Routed filter) := fun edge => by
  unfold Routed
  infer_instance

/-- The routed events of a window, oldest first. -/
def routedEdges (filter : PublicIATAFilter) (db : Database) (fromMs toMs : Int) :
    List EdgeEvent :=
  (db.joinedEdges.filter fun edge => InWindow fromMs toMs edge ∧ Routed filter edge).insertionSort
    (rowOrder false edgeCursor)

/-! ## The two loops -/

section Loops

variable {filter : PublicIATAFilter} {db : PathDatabase} {now fromMs toMs : Int} {limit : Nat}

omit [LiveEnv] in
theorem historyRawPageSize_bounds (remaining : Nat) :
    0 < historyRawPageSize remaining ∧ historyRawPageSize remaining ≤ 5000 := by
  unfold historyRawPageSize
  dsimp only
  split <;> split <;> omega

omit [LiveEnv] in
/-- What the loop over the stored edges reads. -/
theorem publicHistoryEvents_window (hto : boundedHistoryTo now toMs = toMs) {n : Nat} (hpos : 0 < n)
    (hle : n ≤ 5000) (c : Option HistoryCursor) :
    db.publicHistoryEvents now (historyQuery fromMs toMs c n) =
      (rowsBeyond (HistoryCursor.Before false) HistoryEvent.cursor c
        ((windowEdges false db.toDatabase fromMs toMs).map routePulseEvent)).take n := by
  have hwindow : ∀ edge ∈ db.joinedEdges,
      PathDatabase.historyCondition now (historyQuery fromMs toMs c n) edge ↔
        InWindow fromMs toMs edge := by
    intro edge _
    unfold PathDatabase.historyCondition historyQuery InWindow
    rw [hto]
    exact ⟨fun h => ⟨h.1, h.2.1⟩, fun h => ⟨h.1, h.2, Or.inl upperTrim_empty, Or.inl upperTrim_empty⟩⟩
  have hlimit : (historyQuery fromMs toMs c n).limit = n := rfl
  unfold PathDatabase.publicHistoryEvents
  dsimp only
  rw [hlimit, if_neg (by omega), Int.toNat_natCast, selectRows_congr hwindow, selectRows_eq,
    rowsBeyond_map (fun _ _ => rfl : ∀ edge ∈ windowEdges false db.toDatabase fromMs toMs,
      (routePulseEvent edge).cursor = edgeCursor edge), List.map_take]
  rfl

/-- The loop over the stored edges keeps the routed ones. -/
theorem map_keepHistoryEvent (edge : EdgeEvent) :
    (keepHistoryEvent filter db (routePulseEvent edge)).map eventEntry =
      if Routed filter edge then some (edgeEntry edge) else none := by
  have hiata : (routePulseEvent edge).iata = edge.iata := rfl
  unfold keepHistoryEvent
  rw [hiata]
  cases hallows : filter.allows edge.iata with
  | false =>
    have hnot : ¬Routed filter edge := fun h => by rw [h.1] at hallows; cases hallows
    rw [if_pos (by rfl), if_neg hnot]
    rfl
  | true =>
    rw [if_neg (by simp)]
    have hevent : ∀ locations index, publicHistoryEvent (routePulseEvent edge) locations index =
        (publicRoutePulseFromEdge edge index).map fun pulse =>
          { type := "routePulse", heardAt := edge.heardAt, data := .pulse pulse } := by
      intro locations index
      have htype : (routePulseEvent edge).type = "routePulse" := rfl
      unfold publicHistoryEvent
      rw [htype, if_neg (by decide), if_pos rfl]
      rfl
    rw [hevent, Option.map_map]
    by_cases hmappable : mappableSegments edge = []
    · rw [(publicRoutePulseFromEdge_eq_none_iff ..).mpr hmappable, if_neg fun h => h.2 hmappable]
      rfl
    · obtain ⟨pulse, hpulse, -, hid, -⟩ := exists_pulse hmappable
        (buildPublicPathHash3Index db.nodes db.observers)
      rw [hpulse, if_pos ⟨hallows, hmappable⟩, Option.map_some]
      show some (edge.heardAt, pulse.id) = _
      rw [hid]
      rfl

/-- The loop over the stored edges answers rightly. -/
theorem publicHistoryRaw_answers (hids : db.toDatabase.RowIDs)
    (hto : boundedHistoryTo now toMs = toMs) (hlimit : 0 < limit) (c : Option HistoryCursor) :
    ∃ r, publicHistoryRaw filter db now fromMs toMs limit c = some r ∧
      Answers (HistoryCursor.Before false) ((windowEdges false db.toDatabase fromMs toMs).map edgeCursor)
        (edgeListing false (windowEdges false db.toDatabase fromMs toMs) (Routed filter)) c
        (r.events.map eventEntry) r.nextCursor := by
  have hpairwise := hids.pairwise_selectRows false none (InWindow fromMs toMs)
  have hsorted : ((windowEdges false db.toDatabase fromMs toMs).map routePulseEvent).Pairwise
      fun a b => HistoryCursor.Before false a.cursor b.cursor := List.pairwise_map.mpr hpairwise
  have hfuel : ((windowEdges false db.toDatabase fromMs toMs).map routePulseEvent).length <
      db.edges.length + 1 := by
    rw [List.length_map]
    refine Nat.lt_succ_of_le ((length_selectRows_le ..).trans ?_)
    exact (List.length_map _).le
  have hloop : ∃ s, runLoop (fun s : PageScan PublicHistoryEvent => decide (s.found.length < limit))
      (historyRawPass filter db now fromMs toMs limit) (db.edges.length + 1)
      (PageScan.start c) = some s ∧
      ScanDone (HistoryCursor.Before false) HistoryEvent.cursor
        ((windowEdges false db.toDatabase fromMs toMs).map routePulseEvent) (keepHistoryEvent filter db)
        limit (fun s => limit ≤ s.found.length) c s := by
    refine pageLoop_spec (fun s hs => ?_) (fun s hinv hmore => ?_) hfuel
    · simpa using hs
    · obtain ⟨hpos, hle⟩ := historyRawPageSize_bounds (limit - s.found.length)
      exact rawPage_spec hsorted (fun _ _ => rfl) (fun _ h => h) hinv (by simpa using hmore) hpos
        (publicHistoryEvents_window hto hpos hle s.nextCursor)
  obtain ⟨s, hs, hdone⟩ := hloop
  refine ⟨historyResponse now fromMs toMs s.found
    (if limit ≤ s.found.length then s.nextCursor else none), by rw [publicHistoryRaw, hs]; rfl, ?_⟩
  refine answers_edgeListing routePulseEvent eventEntry (fun _ _ => rfl)
    (fun edge _ => map_keepHistoryEvent edge) (hdone.answers (fun hfull => Or.inl ?_)
    (fun _ hroom => if_neg (not_le.mpr hroom)) fun _ hfull => if_pos hfull)
  intro hnil
  rw [hnil] at hfull
  exact absurd hfull (not_le.mpr hlimit)

/-! ## The projection -/

/-- The row of an edge meets the condition of the projection's query where the
edge is on the map and in the window. -/
theorem packetPathCondition_window (hto : boundedHistoryTo now toMs = toMs) (n : Nat)
    (c : Option HistoryCursor) (edge : EdgeEvent) :
    PathDatabase.packetPathCondition now (historyPathQuery fromMs toMs c n) (pathRow edge) ↔
      InWindow fromMs toMs edge ∧ mappableSegments edge ≠ [] := by
  have hrow := rowOf_insertPublicPacketPath edge
  have hheard : (pathRow edge).heardAt = edge.heardAt := congrArg HistoryCursor.heardAt hrow.cursor
  unfold PathDatabase.packetPathCondition historyPathQuery InWindow
  rw [hto, hheard]
  constructor
  · exact fun h => ⟨⟨h.2.1, h.2.2.1⟩, hrow.mappable.mp h.1⟩
  · rintro ⟨⟨hfrom, hle⟩, hmappable⟩
    refine ⟨hrow.mappable.mpr hmappable, hfrom, hle, Or.inl upperTrim_empty,
      Or.inl upperTrim_empty, fun h => ?_, fun h => ?_⟩
    · cases h
    · cases h

/-- The loop over the projection keeps the routed edges with a positive time. -/
theorem map_keepProjectedPulse {edge : EdgeEvent} (hmappable : mappableSegments edge ≠ []) :
    (keepProjectedPulse filter (projectedPath edge)).map eventEntry =
      if Routed filter edge ∧ 0 < edge.heardAt then some (edgeEntry edge) else none := by
  have hrow := rowOf_insertPublicPacketPath edge
  have hiata : filter.allows (projectedPath edge).iata = filter.allows edge.iata :=
    (congrArg filter.allows hrow.iata).trans (filter.allows_upperTrim edge.iata)
  have hsegments : (projectedPath edge).segments ≠ [] := fun hnil =>
    (hrow.path hmappable).2.2.2 (List.map_eq_nil_iff.mp hnil)
  unfold keepProjectedPulse publicRoutePulseFromPacketPath
  rw [hiata, heardAt_projectedPath, id_projectedPath, trimSpace_pulseID]
  cases hallows : filter.allows edge.iata with
  | false =>
    have hnot : ¬(Routed filter edge ∧ 0 < edge.heardAt) := fun h => by
      rw [h.1.1] at hallows
      cases hallows
    rw [if_pos (by rfl), if_neg hnot]
    rfl
  | true =>
    rw [if_neg (by simp)]
    by_cases hpos : 0 < edge.heardAt
    · rw [if_neg (by simp [hsegments]; omega), if_pos ⟨⟨hallows, hmappable⟩, hpos⟩]
      rfl
    · rw [if_pos (Or.inr (not_lt.mp hpos)), if_neg fun h => hpos h.2]
      rfl

/-- The loop over the projection answers rightly, but for the edges without a
positive time. -/
theorem publicHistoryFromProjection_answers (hids : db.toDatabase.RowIDs) (hmade : db.ProjectionMade)
    (hto : boundedHistoryTo now toMs = toMs)
    (hcomplete : db.publicPacketPathProjectionComplete now fromMs toMs = true)
    (hlimit : 0 < limit) (c : Option HistoryCursor) :
    ∃ r, publicHistoryFromProjection filter db now fromMs toMs limit c = some r ∧
      Answers (HistoryCursor.Before false) ((windowEdges false db.toDatabase fromMs toMs).map edgeCursor)
        (edgeListing false (windowEdges false db.toDatabase fromMs toMs) fun edge =>
          Routed filter edge ∧ 0 < edge.heardAt) c
        (r.events.map eventEntry) r.nextCursor := by
  have hwindow : selectRows false edgeCursor none
      (fun edge => InWindow fromMs toMs edge ∧ mappableSegments edge ≠ []) db.joinedEdges =
      (windowEdges false db.toDatabase fromMs toMs).filter fun edge => mappableSegments edge ≠ [] :=
    selectRows_and none _ _ _
  obtain ⟨s, hs, hanswer⟩ := projectionLoop_answers _ hids hmade (historyPathQuery fromMs toMs)
    (fun c n => ⟨rfl, rfl⟩) (fun c n edge _ => packetPathCondition_window hto n c edge)
    (fun edge hedge hp => PathDatabase.exists_row_of_complete hcomplete hedge hp.1.1
      (hto.symm ▸ hp.1.2)) (keepProjectedPulse filter) eventEntry _
    (fun edge hp => map_keepProjectedPulse hp.2) hlimit
    (show 0 < publicPacketsMaxRawScan by decide)
    (fun s => min (historyRawPageSize (limit - s.found.length)) (publicPacketsMaxRawScan - s.scanned))
    c
  rw [hwindow] at hanswer
  refine ⟨historyResponse now fromMs toMs s.found _, by
    rw [publicHistoryFromProjection, historyProjectionPass, hs]; rfl, ?_⟩
  have hlisting : (edgeListing false
      ((windowEdges false db.toDatabase fromMs toMs).filter fun edge => mappableSegments edge ≠ [])
      fun edge => Routed filter edge ∧ 0 < edge.heardAt) =
      edgeListing false (windowEdges false db.toDatabase fromMs toMs)
        fun edge => Routed filter edge ∧ 0 < edge.heardAt := by
    refine (funext (edgeListing_filter _)).trans (edgeListing_congr fun edge _ => ?_)
    exact and_iff_left_of_imp fun h => h.1.2
  rw [hlisting] at hanswer
  exact hanswer.mono (List.map_subset _ (List.filter_subset_self _))

end Loops

/-! ## Following the cursors -/

/-- The pages of a client that follows the cursors: its `i`-th request is answered
at the time `now i` with the projection `paths i`, whose reads succeed if
`readable i`. -/
def historyPages (filter : PublicIATAFilter) (db : Database) (request : PageRequest)
    (now : Nat → Int) (paths : Nat → List PacketPathRow) (readable : Nat → Bool) :
    Option (List (List PublicHistoryEvent)) :=
  follow (fun i cursor =>
    (publicHistory filter { toDatabase := db, packetPaths := paths i } (now i) (readable i)
      { request with cursor }).map fun r => (r.events, r.nextCursor))
    (db.edges.length + 1) 0 none

/-- The pages come to an end and show the edges in their order, each of them once. -/
def ShowEachOnce (pages : Option (List (List PublicHistoryEvent))) (edges : List EdgeEvent) :
    Prop :=
  ∃ ps, pages = some ps ∧ ps.flatten.map eventEntry = edges.map edgeEntry ∧
    (ps.flatten.map eventEntry).Nodup

section Client

variable {filter : PublicIATAFilter} {db : Database} {fromMs toMs : Int}

theorem routedEdges_eq : routedEdges filter db fromMs toMs =
    (windowEdges false db fromMs toMs).filter fun edge => Routed filter edge :=
  insertionSort_shown false db fromMs toMs (Routed filter)

/-- Where every request is answered rightly, the pages show the edges of the window. -/
theorem showEachOnce_historyPages (hids : db.RowIDs) (shown : EdgeEvent → Prop) [DecidablePred shown]
    (request : PageRequest) (now : Nat → Int) (paths : Nat → List PacketPathRow)
    (readable : Nat → Bool)
    (h : ∀ i c, ∃ r, publicHistory filter { toDatabase := db, packetPaths := paths i } (now i)
        (readable i) { request with cursor := c } = some r ∧
      Answers (HistoryCursor.Before false) ((windowEdges false db fromMs toMs).map edgeCursor)
        (edgeListing false (windowEdges false db fromMs toMs) shown) c (r.events.map eventEntry)
        r.nextCursor) :
    ShowEachOnce (historyPages filter db request now paths readable)
      ((windowEdges false db fromMs toMs).filter fun edge => shown edge) := by
  refine follow_windowEdges hids shown eventEntry _ fun i c => ?_
  obtain ⟨r, hr, hanswer⟩ := h i c
  exact ⟨r.events, r.nextCursor, by rw [hr]; rfl, hanswer⟩

/-- **Following the history cursor shows every routed event of the window once,
oldest first**, whatever the projection is at each request and whether it can be
read, if and only if no routed event was heard at a time of zero or below. -/
theorem history_enumerates_iff (filter : PublicIATAFilter) {db : Database} (hids : db.RowIDs)
    (request : PageRequest) (now : Nat → Int)
    (hwindow : ∀ i, publicHistoryWindow request.fromQuery request.toQuery (now i) = (fromMs, toMs))
    (hto : 0 < toMs) {limit : Int} (hlimit : request.limitQuery = some limit) (hone : 1 ≤ limit)
    (hmax : limit ≤ 2000) :
    (∀ (paths : Nat → List PacketPathRow) (readable : Nat → Bool),
      (∀ i, PathDatabase.ProjectionMade { toDatabase := db, packetPaths := paths i }) →
      ShowEachOnce (historyPages filter db request now paths readable)
        (routedEdges filter db fromMs toMs)) ↔
      ∀ edge ∈ routedEdges filter db fromMs toMs, 0 < edge.heardAt := by
  have hbound : ∀ i, boundedHistoryTo (now i) toMs = toMs := fun i =>
    boundedHistoryTo_of_window (hwindow i) hto
  have hpage : pageLimit (some limit) publicHistoryDefaultLimit publicHistoryMaxLimit =
      limit.toNat := by
    simp only [pageLimit, Option.getD_some, publicHistoryMaxLimit]
    rw [if_neg (by omega), if_neg (by omega)]
  have hroom : 0 < limit.toNat := by omega
  rw [routedEdges_eq]
  constructor
  · -- with every edge projected, all pages come from the projection
    intro hall edge hedge
    have hmade := PathDatabase.projectionMade_projectAll hids
    obtain ⟨ps, hps, hshown, -⟩ := hall (fun _ => db.joinedEdges.map pathRow) (fun _ => true)
      fun _ => hmade
    obtain ⟨ps', hps', hlisted, -⟩ := showEachOnce_historyPages hids
      (fun edge => Routed filter edge ∧ 0 < edge.heardAt) request now
      (fun _ => db.joinedEdges.map pathRow) (fun _ => true) fun i c => by
        have hcomplete := PathDatabase.complete_projectAll db (now i) fromMs toMs
        unfold publicHistory
        rw [hwindow i, hlimit, hpage]
        dsimp only
        rw [if_pos ⟨hcomplete, rfl⟩]
        exact publicHistoryFromProjection_answers hids hmade (hbound i) hcomplete hroom c
    rw [Option.some.inj (hps.symm.trans hps')] at hshown
    have hlength := congrArg List.length (hshown.symm.trans hlisted)
    rw [List.length_map, List.length_map] at hlength
    have hfilter : ((windowEdges false db fromMs toMs).filter fun edge =>
        Routed filter edge ∧ 0 < edge.heardAt) =
        ((windowEdges false db fromMs toMs).filter fun edge => Routed filter edge).filter
          fun edge => 0 < edge.heardAt := by
      rw [List.filter_filter]
      refine List.filter_congr fun edge _ => Bool.eq_iff_iff.mpr ?_
      simp only [Bool.and_eq_true, decide_eq_true_eq]
      exact And.comm
    rw [hfilter, eq_comm, List.length_filter_eq_length_iff] at hlength
    exact of_decide_eq_true (hlength edge hedge)
  · intro hpos paths readable hmade
    refine showEachOnce_historyPages hids _ request now paths readable fun i c => ?_
    have hlisting : (edgeListing false (windowEdges false db fromMs toMs) fun edge =>
        Routed filter edge ∧ 0 < edge.heardAt) =
        edgeListing false (windowEdges false db fromMs toMs) (Routed filter) :=
      edgeListing_congr fun edge hedge => and_iff_left_of_imp fun hrouted =>
        hpos edge (List.mem_filter.mpr ⟨hedge, decide_eq_true hrouted⟩)
    unfold publicHistory
    rw [hwindow i, hlimit, hpage]
    dsimp only
    split
    · rename_i hcomplete
      exact hlisting ▸ publicHistoryFromProjection_answers hids (hmade i) (hbound i) hcomplete.1
        hroom c
    · exact publicHistoryRaw_answers hids (hbound i) hroom c

end Client

end Env

/-! ## Runs -/

section Runs

open CartoLive.App

attribute [local instance] defaultEnv

/-- The request for events up to 5000, one on a page. -/
def onePerPage : PageRequest :=
  { fromQuery := some 0, toQuery := some 5000, limitQuery := some 1, cursor := none }

/-- A database with two edges. -/
def twoEdges : Database :=
  { emptyDatabase with
    edges := [{ sampleEdge with id := 1, heardAt := 2000 }, { sampleEdge with id := 2 }] }

/-- A database with an edge that was heard at the epoch. -/
def epochEdge : Database :=
  { emptyDatabase with edges := [{ sampleEdge with id := 1, heardAt := 0 }] }

theorem twoEdges_shown :
    (routedEdges (newPublicIATAFilter []) twoEdges 0 5000).map EdgeEvent.id = [2, 1] ∧
      ∀ (paths : Nat → List PacketPathRow) (readable : Nat → Bool),
        (∀ i, PathDatabase.ProjectionMade { toDatabase := twoEdges, packetPaths := paths i }) →
        ShowEachOnce
          (historyPages (newPublicIATAFilter []) twoEdges onePerPage (fun _ => 10000) paths readable)
          (routedEdges (newPublicIATAFilter []) twoEdges 0 5000) :=
  ⟨by decide +kernel,
    (history_enumerates_iff (newPublicIATAFilter []) ⟨by decide, by decide⟩ onePerPage
      (fun _ => 10000) (fun _ => by decide) (by decide) rfl (by decide) (by decide)).mpr
      (by decide +kernel)⟩

/-- The projection leaves out an event at the epoch. -/
theorem event_at_zero_left_out :
    ¬ ∀ (filter : PublicIATAFilter) (db : Database), db.RowIDs →
      ∀ (request : PageRequest) (now : Nat → Int) (fromMs toMs limit : Int),
      (∀ i, publicHistoryWindow request.fromQuery request.toQuery (now i) = (fromMs, toMs)) →
      0 < toMs → request.limitQuery = some limit → 1 ≤ limit → limit ≤ 2000 →
      ∀ (paths : Nat → List PacketPathRow) (readable : Nat → Bool),
      (∀ i, PathDatabase.ProjectionMade { toDatabase := db, packetPaths := paths i }) →
      ShowEachOnce (historyPages filter db request now paths readable)
        (routedEdges filter db fromMs toMs) := by
  intro h
  have hids : epochEdge.RowIDs := ⟨by decide, by decide⟩
  obtain ⟨ps, hps, hshown, -⟩ := h (newPublicIATAFilter []) epochEdge hids onePerPage
    (fun _ => 10000) 0 5000 1 (fun _ => by decide) (by decide) rfl (by decide) (by decide)
    (fun _ => epochEdge.joinedEdges.map pathRow) (fun _ => true)
    fun _ => PathDatabase.projectionMade_projectAll hids
  have hempty : historyPages (newPublicIATAFilter []) epochEdge onePerPage (fun _ => 10000)
      (fun _ => epochEdge.joinedEdges.map pathRow) (fun _ => true) = some [[]] := by
    decide +kernel
  rw [← Option.some.inj (hempty.symm.trans hps)] at hshown
  exact absurd hshown (by decide +kernel)

end Runs

end CartoLive.Theorems.HistoryPages
