import CartoLive.Api.PublicHistory

/-!
# The packet pages

`publicPackets` of `routes.go`: the packet paths of a window, newest first, from
the packet-path projection where it is complete (`publicPacketsFromProjection`)
and from the stored edges where it is not.

The text query is left out, and so is what is only counted for diagnostics. The
reads of the projection may fail, as for the history pages.
-/

namespace CartoLive.Api

open CartoLive.Lib CartoLive.Go CartoLive.Live CartoLive.Store

def publicPacketsMaxLimit : Int := 1000
def publicPacketsDefaultLimit : Int := 250

/-! ## Filters -/

/-- The query of a request for packets. -/
structure PacketsRequest extends PageRequest where
  region : List String
  iata : List String
  payload : String
  minHops : Option Int
  messageOnly : String

/-- `publicPacketFilters`. -/
structure PublicPacketFilters where
  iata : String
  payload : String
  minHops : Int
  messageOnly : Bool
  deriving DecidableEq

/-- `hasAny`. -/
def PublicPacketFilters.hasAny (f : PublicPacketFilters) : Bool :=
  f.iata ≠ "" || f.payload ≠ "" || 0 < f.minHops || f.messageOnly

/-- `firstUpperQuery`, with the values of its keys. -/
def firstUpperQuery (values : List String) : String :=
  ((values.map upperTrim).find? fun item => item ≠ "").getD ""

/-- `queryBool`. -/
def queryBool (raw : String) : Bool :=
  ["1", "t", "true", "y", "yes", "on"].contains (toLower (trimSpace raw))

/-- `publicPacketFiltersFromRequest`. -/
def publicPacketFilters (request : PacketsRequest) : PublicPacketFilters :=
  { iata := firstUpperQuery (request.region ++ request.iata)
    payload := upperTrim request.payload
    minHops := max 0 (request.minHops.getD 0)
    messageOnly := queryBool request.messageOnly }

/-- `publicPacketMatchesFilters`. -/
def publicPacketMatchesFilters (packet : PublicPacketPath) (filters : PublicPacketFilters) :
    Bool :=
  !(filters.iata ≠ "" && toUpper packet.iata ≠ filters.iata) &&
    !(filters.payload ≠ "" && toUpper packet.payloadTypeName ≠ filters.payload) &&
    !(0 < filters.minHops && packet.hopCount < filters.minHops) &&
    !(filters.messageOnly && trimSpace packet.messageText = "")

theorem upperTrim_firstUpperQuery (values : List String) :
    upperTrim (firstUpperQuery values) = firstUpperQuery values := by
  unfold firstUpperQuery
  cases hfind : (values.map upperTrim).find? fun item => item ≠ "" with
  | none => exact upperTrim_empty
  | some item =>
    obtain ⟨value, -, rfl⟩ := List.mem_map.mp (List.mem_of_find?_eq_some hfind)
    exact upperTrim_upperTrim value

/-! ## Page sizes -/

/-- `publicPacketsRawPageSize`. -/
def publicPacketsRawPageSize (remaining : Nat) (filters : PublicPacketFilters) : Nat :=
  if remaining = 0 then 0
  else if !(0 < filters.minHops || filters.messageOnly) then min (max remaining 200) 1000
  else min (max (remaining * 2) 400) 1200

theorem publicPacketsRawPageSize_bounds {remaining : Nat} (h : 0 < remaining)
    (filters : PublicPacketFilters) :
    0 < publicPacketsRawPageSize remaining filters ∧
      publicPacketsRawPageSize remaining filters ≤ 1200 := by
  unfold publicPacketsRawPageSize
  rw [if_neg (by omega)]
  split <;> omega

/-- How many rows a loop reads next. -/
def packetsRawLimit {β : Type} (limit : Nat) (filters : PublicPacketFilters) (s : PageScan β) :
    Nat :=
  min (publicPacketsRawPageSize (limit - s.found.length) filters)
    (publicPacketsMaxRawScan - s.scanned)

theorem packetsRawLimit_bounds {β : Type} {limit : Nat} (filters : PublicPacketFilters)
    (s : PageScan β) (hroom : s.found.length < limit) (hscanned : s.scanned < publicPacketsMaxRawScan) :
    0 < packetsRawLimit limit filters s ∧ packetsRawLimit limit filters s ≤ 2500 := by
  obtain ⟨hpos, hle⟩ := publicPacketsRawPageSize_bounds (Nat.sub_pos_of_lt hroom) filters
  unfold packetsRawLimit
  omega

/-! ## The response -/

/-- `PublicPacketScan`. -/
structure PublicPacketScan where
  eventsScanned : Nat
  scanLimit : Nat
  filtered : Bool
  isPartial : Bool
  deriving DecidableEq

/-- `PublicPacketsResponse`. -/
structure PublicPacketsResponse where
  serverTime : Int
  packets : List PublicPacketPath
  nextCursor : Option HistoryCursor
  window : PublicHistoryWindow
  scan : PublicPacketScan
  deriving DecidableEq

/-- `publicPacketsNextCursorToken`. -/
def publicPacketsNextCursorToken (cursor : Option HistoryCursor) (exhausted : Bool)
    (matched limit scannedRaw : Nat) : Option HistoryCursor :=
  if exhausted then none
  else if limit ≤ matched ∨ publicPacketsMaxRawScan ≤ scannedRaw then cursor
  else none

/-- The response with what a loop has found. -/
def packetsResponse (now fromMs toMs : Int) (limit : Nat) (filters : PublicPacketFilters)
    (s : PageScan PublicPacketPath) : PublicPacketsResponse :=
  let nextCursor :=
    publicPacketsNextCursorToken s.nextCursor s.exhausted s.found.length limit s.scanned
  { serverTime := now
    packets := s.found
    nextCursor
    window := { fromMs, toMs, count := s.found.length }
    scan :=
      { eventsScanned := s.scanned
        scanLimit := publicPacketsMaxRawScan
        filtered := filters.hasAny
        isPartial := nextCursor.isSome } }

theorem nextCursor_packetsResponse (now fromMs toMs : Int) (limit : Nat)
    (filters : PublicPacketFilters) (s : PageScan PublicPacketPath) :
    (packetsResponse now fromMs toMs limit filters s).nextCursor =
      if !s.exhausted ∧ (limit ≤ s.found.length ∨ publicPacketsMaxRawScan ≤ s.scanned) then
        s.nextCursor
      else none := by
  unfold packetsResponse publicPacketsNextCursorToken
  dsimp only
  cases s.exhausted <;> simp

/-! ## The handler -/

section Env

variable [LiveEnv] (filter : PublicIATAFilter) (db : PathDatabase) (now fromMs toMs : Int)
  (limit : Nat) (filters : PublicPacketFilters)

/-- What the loop over the stored edges keeps. -/
def keepPacket (edge : EdgeEvent) : Option PublicPacketPath :=
  if !filter.allows edge.iata then none
  else (publicPacketPath edge (buildPublicPathHash3Index db.nodes db.observers)).filter fun packet =>
    publicPacketMatchesFilters packet filters

/-- What the loop over the projection keeps; the query has seen to the filters. -/
def keepProjectedPacket (packet : PublicPacketPath) : Option PublicPacketPath :=
  if !filter.allows packet.iata then none else some packet

/-- What the loop over the stored edges asks for. -/
def packetsQuery (cursor : Option HistoryCursor) (rawLimit : Nat) : HistoryQuery :=
  { fromMs, toMs, limit := rawLimit, cursor, newestFirst := false
    iata := filters.iata, payloadTypeName := filters.payload }

/-- What the loop over the projection asks for. -/
def packetsPathQuery (cursor : Option HistoryCursor) (rawLimit : Nat) : PublicPacketPathQuery :=
  { fromMs, toMs, limit := rawLimit, cursor, newestFirst := true
    iata := filters.iata, payloadTypeName := filters.payload
    minHops := filters.minHops, messageOnly := filters.messageOnly }

/-- A pass of the loop of `publicPackets` over the stored edges. -/
def packetsRawPass : PageScan PublicPacketPath → PageScan PublicPacketPath × Bool :=
  rawPage (fun edge => some (edgeCursor edge)) (keepPacket filter db filters) limit
    (fun cursor rawLimit =>
      db.publicPacketEdgeEvents now (packetsQuery fromMs toMs filters cursor rawLimit))
    (packetsRawLimit limit filters)

/-- The loop of `publicPackets` over the stored edges, and its response. -/
def publicPacketsRaw (cursor : Option HistoryCursor) : Option PublicPacketsResponse :=
  (runLoop (fun s => s.found.length < limit && s.scanned < publicPacketsMaxRawScan)
    (packetsRawPass filter db now fromMs toMs limit filters) (db.edges.length + 1)
    (PageScan.start cursor)).map (packetsResponse now fromMs toMs limit filters)

/-- A pass of the loop of `publicPacketsFromProjection`. -/
def packetsProjectionPass : PageScan PublicPacketPath → PageScan PublicPacketPath × Bool :=
  projectionPage publicPacketProjectionCursor (keepProjectedPacket filter) limit
    (fun cursor rawLimit =>
      db.publicPacketPaths now (packetsPathQuery fromMs toMs filters cursor rawLimit))
    (packetsRawLimit limit filters)

/-- `publicPacketsFromProjection`. -/
def publicPacketsFromProjection (cursor : Option HistoryCursor) : Option PublicPacketsResponse :=
  (runLoop (fun s => s.found.length < limit && s.scanned < publicPacketsMaxRawScan)
    (packetsProjectionPass filter db now fromMs toMs limit filters) (db.packetPaths.length + 1)
    (PageScan.start cursor)).map (packetsResponse now fromMs toMs limit filters)

/-- `publicPackets`, where the reads of the projection succeed if `readable`. -/
def publicPackets (readable : Bool) (request : PacketsRequest) : Option PublicPacketsResponse :=
  let (fromMs, toMs) := publicHistoryWindow request.fromQuery request.toQuery now
  let limit := pageLimit request.limitQuery publicPacketsDefaultLimit publicPacketsMaxLimit
  let filters := publicPacketFilters request
  if db.publicPacketPathProjectionComplete now fromMs toMs ∧ readable then
    publicPacketsFromProjection filter db now fromMs toMs limit filters request.cursor
  else publicPacketsRaw filter db now fromMs toMs limit filters request.cursor

end Env

end CartoLive.Api
