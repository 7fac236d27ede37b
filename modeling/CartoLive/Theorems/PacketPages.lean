import CartoLive.Api.PublicPackets
import CartoLive.App.Backend
import CartoLive.Store.Labels

/-!
# Following the packets cursor

A client that follows the cursors of `publicPackets` from page to page gets the
packets of its window that its filters let through, newest first and each once.
The loop over the stored edges and the loop over the projection both do this, and
pages from the two can be mixed (`packets_enumerate`).

The two loops filter in different places: the query over the edges knows the
region and the payload type only, and the rest is looked at afterwards; the query
over the projection knows all filters. `map_keepPacket` and
`packetPathCondition_iff` say that an edge passes here if and only if it passes
there.
-/

namespace CartoLive.Theorems.PacketPages

open CartoLive.Lib CartoLive.Go CartoLive.Live CartoLive.Store CartoLive.Api

/-- How a packet appears on a page: with its time and its identifier. -/
def packetEntry (packet : PublicPacketPath) : Int × String := (packet.heardAt, packet.id)

section Env

variable [LiveEnv]

/-! ## Filters on edges -/

/-- An edge that matches the filters of a request. -/
structure Matches (filters : PublicPacketFilters) (edge : EdgeEvent) : Prop where
  iata : filters.iata = "" ∨ upperTrim edge.iata = filters.iata
  payload : filters.payload = "" ∨ upperTrim edge.payloadTypeName = filters.payload
  minHops : filters.minHops ≤ 0 ∨ filters.minHops ≤ (mappableSegments edge).length
  messageOnly : filters.messageOnly = true →
    publicMessageText (publicMessageText edge.messageText) ≠ ""

instance (filters : PublicPacketFilters) : DecidablePred (Matches filters) := fun edge =>
  decidable_of_iff
    ((filters.iata = "" ∨ upperTrim edge.iata = filters.iata) ∧
      (filters.payload = "" ∨ upperTrim edge.payloadTypeName = filters.payload) ∧
      (filters.minHops ≤ 0 ∨ filters.minHops ≤ (mappableSegments edge).length) ∧
      (filters.messageOnly = true → publicMessageText (publicMessageText edge.messageText) ≠ ""))
    ⟨fun h => ⟨h.1, h.2.1, h.2.2.1, h.2.2.2⟩, fun h => ⟨h.1, h.2, h.3, h.4⟩⟩

/-- An edge of an allowed region that is on the map and matches the filters. -/
def Wanted (filter : PublicIATAFilter) (filters : PublicPacketFilters) (edge : EdgeEvent) : Prop :=
  filter.allows edge.iata = true ∧ mappableSegments edge ≠ [] ∧ Matches filters edge

instance (filter : PublicIATAFilter) (filters : PublicPacketFilters) :
    DecidablePred (Wanted filter filters) := fun edge => by
  unfold Wanted
  infer_instance

/-- The wanted edges of a window, newest first. -/
def wantedEdges (filter : PublicIATAFilter) (filters : PublicPacketFilters) (db : Database)
    (fromMs toMs : Int) : List EdgeEvent :=
  (db.joinedEdges.filter fun edge =>
    InWindow fromMs toMs edge ∧ Wanted filter filters edge).insertionSort (rowOrder true edgeCursor)

/-- The filters of a request are in comparison form. -/
structure NormalFilters (filters : PublicPacketFilters) : Prop where
  iata : upperTrim filters.iata = filters.iata
  payload : upperTrim filters.payload = filters.payload

omit [LiveEnv] in
theorem normal_publicPacketFilters (request : PacketsRequest) :
    NormalFilters (publicPacketFilters request) where
  iata := upperTrim_firstUpperQuery _
  payload := upperTrim_upperTrim _

/-- The packet of an edge matches if the edge does. -/
theorem publicPacketMatchesFilters_iff {edge : EdgeEvent} {packet : PublicPacketPath}
    (h : PathOf edge packet) (filters : PublicPacketFilters) :
    publicPacketMatchesFilters packet filters = true ↔ Matches filters edge := by
  have hiata : toUpper packet.iata = upperTrim edge.iata := by
    rw [h.iata]
    simp only [upperTrim, toUpper_idem]
  have hpayload : toUpper packet.payloadTypeName = upperTrim edge.payloadTypeName := by
    rw [h.payloadTypeName]
    rfl
  have hmessage : trimSpace packet.messageText = "" ↔
      publicMessageText (publicMessageText edge.messageText) = "" := by
    rw [h.messageText]
    exact trimSpace_publicMessageText _
  unfold publicPacketMatchesFilters
  rw [hiata, hpayload, h.hopCount]
  simp only [Bool.and_eq_true, Bool.not_eq_true', Bool.and_eq_false_iff, decide_eq_false_iff_not,
    Decidable.not_not, hmessage, not_lt]
  constructor
  · rintro ⟨⟨⟨hi, hp⟩, hm⟩, ht⟩
    exact ⟨hi, hp, hm, fun hon => ht.resolve_left (by simp [hon])⟩
  · rintro ⟨hi, hp, hm, ht⟩
    refine ⟨⟨⟨hi, hp⟩, hm⟩, ?_⟩
    cases hon : filters.messageOnly with
    | true => exact Or.inr (ht hon)
    | false => exact Or.inl rfl

/-! ## The loop over the edges -/

section Loops

variable {filter : PublicIATAFilter} {db : PathDatabase} {now fromMs toMs : Int} {limit : Nat}
  {filters : PublicPacketFilters}

/-- The loop over the stored edges keeps the wanted ones. -/
theorem map_keepPacket (edge : EdgeEvent) :
    (keepPacket filter db filters edge).map packetEntry =
      if Wanted filter filters edge then some (edgeEntry edge) else none := by
  unfold keepPacket
  cases hallows : filter.allows edge.iata with
  | false =>
    have hnot : ¬Wanted filter filters edge := fun h => by rw [h.1] at hallows; cases hallows
    rw [if_pos (by rfl), if_neg hnot]
    rfl
  | true =>
    rw [if_neg (by simp)]
    by_cases hmappable : mappableSegments edge = []
    · rw [publicPacketPath_of_unmappable hmappable, if_neg fun h => h.2.1 hmappable]
      rfl
    · obtain ⟨packet, hpacket, hpath⟩ := publicPacketPath_spec hmappable
        (buildPublicPathHash3Index db.nodes db.observers)
      rw [hpacket]
      by_cases hmatches : Matches filters edge
      · rw [Option.filter_some,
          if_pos ((publicPacketMatchesFilters_iff hpath filters).mpr hmatches),
          if_pos ⟨hallows, hmappable, hmatches⟩, Option.map_some]
        show some (packet.heardAt, packet.id) = _
        rw [hpath.heardAt, hpath.id]
        rfl
      · rw [Option.filter_some,
          if_neg fun h => hmatches ((publicPacketMatchesFilters_iff hpath filters).mp h),
          if_neg fun h => hmatches h.2.2]
        rfl

/-- What the query over the stored edges looks at. -/
def Queried (filters : PublicPacketFilters) (edge : EdgeEvent) : Prop :=
  (filters.iata = "" ∨ toUpper edge.iata = filters.iata) ∧
    (filters.payload = "" ∨ toUpper edge.payloadTypeName = filters.payload)

instance (filters : PublicPacketFilters) : DecidablePred (Queried filters) := fun edge => by
  unfold Queried
  infer_instance

/-- The query leaves out no wanted edge. -/
theorem queried_of_wanted {db : Database} (hlabels : db.Labelled) {edge : EdgeEvent}
    (hedge : edge ∈ db.joinedEdges) (h : Wanted filter filters edge) : Queried filters edge := by
  obtain ⟨stored, hstored, rfl⟩ := List.mem_map.mp hedge
  obtain ⟨hiata, hpayload⟩ := hlabels.joined hstored
  obtain ⟨-, -, hmatches⟩ := h
  have hmi := hmatches.iata
  have hmp := hmatches.payload
  generalize db.joined stored = edge at hiata hpayload hmi hmp ⊢
  rw [hiata] at hmi
  rw [hpayload] at hmp
  rw [Queried, (of_upperTrim_eq hiata).2, (of_upperTrim_eq hpayload).2]
  exact ⟨hmi, hmp⟩

omit [LiveEnv] in
/-- What the loop over the stored edges reads. -/
theorem publicPacketEdgeEvents_window (hfilters : NormalFilters filters)
    (hto : boundedHistoryTo now toMs = toMs) {n : Nat} (hpos : 0 < n) (hle : n ≤ 2500)
    (c : Option HistoryCursor) :
    db.publicPacketEdgeEvents now (packetsQuery fromMs toMs filters c n) =
      (rowsBeyond (HistoryCursor.Before true) edgeCursor c
        (selectRows true edgeCursor none (fun edge => InWindow fromMs toMs edge ∧ Queried filters edge)
          db.joinedEdges)).take n := by
  have hcondition : ∀ edge ∈ db.joinedEdges,
      PathDatabase.historyCondition now (packetsQuery fromMs toMs filters c n) edge ↔
        InWindow fromMs toMs edge ∧ Queried filters edge := by
    intro edge _
    unfold PathDatabase.historyCondition packetsQuery InWindow Queried
    dsimp only
    rw [hto, hfilters.iata, hfilters.payload]
    exact ⟨fun h => ⟨⟨h.1, h.2.1⟩, h.2.2⟩, fun h => ⟨h.1.1, h.1.2, h.2⟩⟩
  have hlimit : (packetsQuery fromMs toMs filters c n).limit = n := rfl
  unfold PathDatabase.publicPacketEdgeEvents
  dsimp only
  rw [hlimit, if_neg (by omega), Int.toNat_natCast, selectRows_congr hcondition, selectRows_eq]
  rfl

/-- The loop over the stored edges answers rightly. -/
theorem publicPacketsRaw_answers (hids : db.toDatabase.RowIDs) (hlabels : db.toDatabase.Labelled)
    (hfilters : NormalFilters filters) (hto : boundedHistoryTo now toMs = toMs)
    (hlimit : 0 < limit) (c : Option HistoryCursor) :
    ∃ r, publicPacketsRaw filter db now fromMs toMs limit filters c = some r ∧
      Answers (HistoryCursor.Before true) ((windowEdges true db.toDatabase fromMs toMs).map edgeCursor)
        (edgeListing true (windowEdges true db.toDatabase fromMs toMs) (Wanted filter filters)) c
        (r.packets.map packetEntry) r.nextCursor := by
  have hwindow : selectRows true edgeCursor none
      (fun edge => InWindow fromMs toMs edge ∧ Queried filters edge) db.joinedEdges =
      (windowEdges true db.toDatabase fromMs toMs).filter fun edge => Queried filters edge :=
    selectRows_and none _ _ _
  have hrows := hids.pairwise_selectRows true none
    fun edge => InWindow fromMs toMs edge ∧ Queried filters edge
  obtain ⟨s, hs, hanswer⟩ := rawLoop_answers (keepPacket filter db filters) hrows
    (fun _ _ => rfl)
    (fun c n hpos hle => publicPacketEdgeEvents_window hfilters hto hpos hle c)
    (packetsRawLimit_bounds filters) hlimit (show 0 < publicPacketsMaxRawScan by decide)
    (Nat.lt_succ_of_le ((length_selectRows_le ..).trans (List.length_map _).le)) c
  rw [hwindow] at hanswer
  have hkept : Answers (HistoryCursor.Before true)
      (((windowEdges true db.toDatabase fromMs toMs).filter fun edge =>
        Queried filters edge).map edgeCursor)
      (edgeListing true ((windowEdges true db.toDatabase fromMs toMs).filter fun edge =>
        Queried filters edge) (Wanted filter filters)) c (s.found.map packetEntry) _ :=
    answers_edgeListing id packetEntry (fun _ _ => rfl) (fun edge _ => map_keepPacket edge)
      (by rw [List.map_id]; exact hanswer)
  refine ⟨packetsResponse now fromMs toMs limit filters s, by
    rw [publicPacketsRaw, packetsRawPass, hs]; rfl, ?_⟩
  have hlisting : (edgeListing true
      ((windowEdges true db.toDatabase fromMs toMs).filter fun edge => Queried filters edge)
      (Wanted filter filters)) =
      edgeListing true (windowEdges true db.toDatabase fromMs toMs) (Wanted filter filters) := by
    refine (funext (edgeListing_filter _)).trans (edgeListing_congr fun edge hedge => ?_)
    exact and_iff_left_of_imp fun h => queried_of_wanted hlabels (mem_selectRows.mp hedge).1 h
  rw [hlisting] at hkept
  rw [nextCursor_packetsResponse]
  exact hkept.mono (List.map_subset _ (List.filter_subset_self _))

/-! ## The loop over the projection -/

/-- What the query over the projection looks at. -/
theorem packetPathCondition_iff (hfilters : NormalFilters filters)
    (hto : boundedHistoryTo now toMs = toMs) (c : Option HistoryCursor) (n : Nat)
    (edge : EdgeEvent) :
    PathDatabase.packetPathCondition now (packetsPathQuery fromMs toMs filters c n) (pathRow edge) ↔
      InWindow fromMs toMs edge ∧ mappableSegments edge ≠ [] ∧ Matches filters edge := by
  have hrow := rowOf_insertPublicPacketPath edge
  have hheard : (pathRow edge).heardAt = edge.heardAt := congrArg HistoryCursor.heardAt hrow.cursor
  have hregion : (pathRow edge).region = upperTrim edge.iata := hrow.region
  have hmappable : (pathRow edge).mappable = true ↔ mappableSegments edge ≠ [] := hrow.mappable
  unfold PathDatabase.packetPathCondition packetsPathQuery InWindow
  dsimp only
  rw [hto, hheard, hregion, hmappable, hfilters.iata, hfilters.payload]
  constructor
  · rintro ⟨hm, hfrom, hle, hi, hp, hh, ht⟩
    obtain ⟨hpayload, htext, hhops, -⟩ := hrow.path hm
    refine ⟨⟨hfrom, hle⟩, hm, hi, hpayload ▸ hp, ?_, fun hon => htext ▸ ht hon⟩
    by_cases hmin : filters.minHops ≤ 0
    · exact Or.inl hmin
    · exact Or.inr (hhops ▸ hh (not_le.mp hmin))
  · rintro ⟨⟨hfrom, hle⟩, hm, hmatches⟩
    obtain ⟨hpayload, htext, hhops, -⟩ := hrow.path hm
    refine ⟨hm, hfrom, hle, hmatches.iata, ?_, fun hpos => ?_, fun hon => ?_⟩
    · exact hpayload.symm ▸ hmatches.payload
    · exact hhops.symm ▸ hmatches.minHops.resolve_left (not_le.mpr hpos)
    · exact htext.symm ▸ hmatches.messageOnly hon

/-- The loop over the projection keeps the wanted edges of those it reads. -/
theorem map_keepProjectedPacket {edge : EdgeEvent} (hmappable : mappableSegments edge ≠ [])
    (hmatches : Matches filters edge) :
    (keepProjectedPacket filter (projectedPath edge)).map packetEntry =
      if Wanted filter filters edge then some (edgeEntry edge) else none := by
  have hrow := rowOf_insertPublicPacketPath edge
  have hiata : filter.allows (projectedPath edge).iata = filter.allows edge.iata :=
    (congrArg filter.allows hrow.iata).trans (filter.allows_upperTrim edge.iata)
  unfold keepProjectedPacket
  rw [hiata]
  cases hallows : filter.allows edge.iata with
  | false =>
    have hnot : ¬Wanted filter filters edge := fun h => by rw [h.1] at hallows; cases hallows
    rw [if_pos (by rfl), if_neg hnot]
    rfl
  | true =>
    rw [if_neg (by simp), if_pos ⟨hallows, hmappable, hmatches⟩, Option.map_some]
    show some ((projectedPath edge).heardAt, (projectedPath edge).id) = _
    rw [heardAt_projectedPath, id_projectedPath]
    rfl

/-- The loop over the projection answers rightly. -/
theorem publicPacketsFromProjection_answers (hids : db.toDatabase.RowIDs)
    (hmade : db.ProjectionMade) (hfilters : NormalFilters filters) (hto : boundedHistoryTo now toMs = toMs)
    (hcomplete : db.publicPacketPathProjectionComplete now fromMs toMs = true)
    (hlimit : 0 < limit) (c : Option HistoryCursor) :
    ∃ r, publicPacketsFromProjection filter db now fromMs toMs limit filters c = some r ∧
      Answers (HistoryCursor.Before true) ((windowEdges true db.toDatabase fromMs toMs).map edgeCursor)
        (edgeListing true (windowEdges true db.toDatabase fromMs toMs) (Wanted filter filters)) c
        (r.packets.map packetEntry) r.nextCursor := by
  have hwindow : selectRows true edgeCursor none
      (fun edge => InWindow fromMs toMs edge ∧ mappableSegments edge ≠ [] ∧ Matches filters edge)
      db.joinedEdges = (windowEdges true db.toDatabase fromMs toMs).filter fun edge =>
        mappableSegments edge ≠ [] ∧ Matches filters edge :=
    selectRows_and none _ _ _
  obtain ⟨s, hs, hanswer⟩ := projectionLoop_answers _ hids hmade (packetsPathQuery fromMs toMs filters)
    (fun c n => ⟨rfl, rfl⟩)
    (fun c n edge _ => packetPathCondition_iff hfilters hto c n edge)
    (fun edge hedge hp => PathDatabase.exists_row_of_complete hcomplete hedge hp.1.1
      (hto.symm ▸ hp.1.2)) (keepProjectedPacket filter) packetEntry _
    (fun edge hp => map_keepProjectedPacket hp.2.1 hp.2.2) hlimit
    (show 0 < publicPacketsMaxRawScan by decide) (packetsRawLimit limit filters) c
  rw [hwindow] at hanswer
  refine ⟨packetsResponse now fromMs toMs limit filters s, by
    rw [publicPacketsFromProjection, packetsProjectionPass, hs]; rfl, ?_⟩
  have hlisting : (edgeListing true
      ((windowEdges true db.toDatabase fromMs toMs).filter fun edge =>
        mappableSegments edge ≠ [] ∧ Matches filters edge) (Wanted filter filters)) =
      edgeListing true (windowEdges true db.toDatabase fromMs toMs) (Wanted filter filters) := by
    refine (funext (edgeListing_filter _)).trans (edgeListing_congr fun edge _ => ?_)
    exact and_iff_left_of_imp fun h => h.2
  rw [hlisting] at hanswer
  rw [nextCursor_packetsResponse]
  exact hanswer.mono (List.map_subset _ (List.filter_subset_self _))

end Loops

/-! ## Following the cursors -/

/-- The pages of a client that follows the cursors of `respond`. -/
def packetPages (db : Database)
    (respond : Nat → Option HistoryCursor → Option PublicPacketsResponse) :
    Option (List (List PublicPacketPath)) :=
  follow (fun i cursor => (respond i cursor).map fun r => (r.packets, r.nextCursor))
    (db.edges.length + 1) 0 none

/-- The pages come to an end and show the edges in their order, each of them once. -/
def ShowEachOnce (pages : Option (List (List PublicPacketPath))) (edges : List EdgeEvent) : Prop :=
  ∃ ps, pages = some ps ∧ ps.flatten.map packetEntry = edges.map edgeEntry ∧
    (ps.flatten.map packetEntry).Nodup

/-- Where every request is answered rightly, the pages show the wanted edges. -/
theorem showEachOnce_packetPages {filter : PublicIATAFilter} {filters : PublicPacketFilters}
    {db : Database} (hids : db.RowIDs) {fromMs toMs : Int}
    {respond : Nat → Option HistoryCursor → Option PublicPacketsResponse}
    (h : ∀ i c, ∃ r, respond i c = some r ∧
      Answers (HistoryCursor.Before true) ((windowEdges true db fromMs toMs).map edgeCursor)
        (edgeListing true (windowEdges true db fromMs toMs) (Wanted filter filters)) c
        (r.packets.map packetEntry) r.nextCursor) :
    ShowEachOnce (packetPages db respond) (wantedEdges filter filters db fromMs toMs) := by
  have hwanted : wantedEdges filter filters db fromMs toMs =
      (windowEdges true db fromMs toMs).filter fun edge => Wanted filter filters edge :=
    insertionSort_shown true db fromMs toMs (Wanted filter filters)
  rw [hwanted]
  refine follow_windowEdges hids (Wanted filter filters) packetEntry _ fun i c => ?_
  obtain ⟨r, hr, hanswer⟩ := h i c
  exact ⟨r.packets, r.nextCursor, by rw [hr]; rfl, hanswer⟩

/-- **Following the packets cursor enumerates the wanted packets**, newest first and
each once: by the loop over the projection, by the loop over the stored edges, and
by the handler, which takes the one or the other at each request. -/
theorem packets_enumerate (filter : PublicIATAFilter) {db : PathDatabase}
    (hids : db.toDatabase.RowIDs) (hlabels : db.toDatabase.Labelled) (hmade : db.ProjectionMade)
    (request : PacketsRequest) (now : Nat → Int) {fromMs toMs : Int}
    (hwindow : ∀ i, publicHistoryWindow request.fromQuery request.toQuery (now i) = (fromMs, toMs))
    (hto : 0 < toMs)
    (hcomplete : ∀ i, db.publicPacketPathProjectionComplete (now i) fromMs toMs = true) {limit : Int}
    (hlimit : request.limitQuery = some limit) (hone : 1 ≤ limit) (hmax : limit ≤ 1000) :
    let filters := publicPacketFilters request
    let wanted := wantedEdges filter filters db.toDatabase fromMs toMs
    ShowEachOnce (packetPages db.toDatabase fun i =>
        publicPacketsFromProjection filter db (now i) fromMs toMs limit.toNat filters) wanted ∧
      ShowEachOnce (packetPages db.toDatabase fun i =>
        publicPacketsRaw filter db (now i) fromMs toMs limit.toNat filters) wanted ∧
      ∀ readable : Nat → Bool,
        ShowEachOnce (packetPages db.toDatabase fun i cursor =>
          publicPackets filter db (now i) (readable i) { request with cursor }) wanted := by
  intro filters wanted
  have hbound : ∀ i, boundedHistoryTo (now i) toMs = toMs := fun i =>
    boundedHistoryTo_of_window (hwindow i) hto
  have hpage : pageLimit (some limit) publicPacketsDefaultLimit publicPacketsMaxLimit =
      limit.toNat := by
    simp only [pageLimit, Option.getD_some, publicPacketsMaxLimit]
    rw [if_neg (by omega), if_neg (by omega)]
  have hroom : 0 < limit.toNat := by omega
  have hfilters : NormalFilters filters := normal_publicPacketFilters request
  refine ⟨showEachOnce_packetPages hids fun i c => ?_, showEachOnce_packetPages hids fun i c => ?_,
    fun readable => showEachOnce_packetPages hids fun i c => ?_⟩
  · exact publicPacketsFromProjection_answers hids hmade hfilters (hbound i) (hcomplete i)
      hroom c
  · exact publicPacketsRaw_answers hids hlabels hfilters (hbound i) hroom c
  · unfold publicPackets
    rw [hwindow i, hlimit, hpage]
    dsimp only
    split
    · exact publicPacketsFromProjection_answers hids hmade hfilters (hbound i) (hcomplete i)
        hroom c
    · exact publicPacketsRaw_answers hids hlabels hfilters (hbound i) hroom c

end Env

/-! ## A run -/

section Runs

open CartoLive.App

attribute [local instance] defaultEnv

/-- Two edges of one region and one of another, all of them projected. -/
def threePackets : PathDatabase :=
  .projectAll
    { emptyDatabase with
      observations := [samplePacket 1, { samplePacket 2 with iata := "YYZ" }]
      edges :=
        [{ sampleEdge with id := 1 }, { sampleEdge with id := 2, observationID := 2 },
          { sampleEdge with id := 3, heardAt := 2000 }] }

/-- The request for the packets of a region up to 5000, one on a page. -/
def packetsOfRegion : PacketsRequest :=
  { fromQuery := some 0, toQuery := some 5000, limitQuery := some 1, cursor := none
    region := [" yow"], iata := [], payload := "advert", minHops := some 1, messageOnly := "" }

theorem threePackets_enumerated :
    (wantedEdges (newPublicIATAFilter []) (publicPacketFilters packetsOfRegion)
        threePackets.toDatabase 0 5000).map EdgeEvent.id = [3, 1] ∧
      ShowEachOnce (packetPages threePackets.toDatabase fun i cursor =>
          publicPackets (newPublicIATAFilter []) threePackets 10000 (i = 0)
            { packetsOfRegion with cursor })
        (wantedEdges (newPublicIATAFilter []) (publicPacketFilters packetsOfRegion)
          threePackets.toDatabase 0 5000) :=
  ⟨by decide +kernel,
    (packets_enumerate (newPublicIATAFilter []) ⟨by decide, by decide⟩
      ⟨by
        intro o ho
        exact ⟨o.iata, by revert o; decide +kernel⟩,
      fun edge hedge => ⟨4, by revert edge; decide +kernel⟩⟩
      (PathDatabase.projectionMade_projectAll ⟨by decide, by decide⟩) packetsOfRegion
      (fun _ => 10000) (fun _ => by decide) (by decide)
      (fun _ => PathDatabase.complete_projectAll _ _ _ _) rfl (by decide) (by decide)).2.2
      fun i => i = 0⟩

end Runs

end CartoLive.Theorems.PacketPages
