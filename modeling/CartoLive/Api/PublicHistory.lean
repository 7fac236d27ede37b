import CartoLive.Api.PageScan
import CartoLive.Go.Numbers
import CartoLive.Live.Filter
import Mathlib.Algebra.BigOperators.Group.List.Lemmas

/-!
# The history pages

`publicHistory` of `routes.go`: the routed events of a window, oldest first, from
the packet-path projection where it is complete (`publicHistoryFromProjection`)
and from the stored edges where it is not. Cursor tokens appear as the cursors
they encode; an empty token is `none`.

The reads of the projection may fail, which is a parameter of a request; a failed
read of the edges ends the request with an error and is left out.
-/

namespace CartoLive.Api

open CartoLive.Lib CartoLive.Go CartoLive.Live CartoLive.Store

/-! ## Windows and page sizes -/

def publicHistoryDefaultWindowMs : Int := 60 * 60 * 1000
def publicHistoryMaxWindowMs : Int := 7 * 24 * 60 * 60 * 1000
def publicHistoryMaxLimit : Int := 2000
def publicHistoryDefaultLimit : Int := 1000
def publicPacketsMaxRawScan : Nat := 2500

/-- `publicBoundedWindow`, with the values of the query's `from` and `to`. -/
def publicBoundedWindow (fromQuery toQuery : Option Int) (now defaultWindowMs : Int) : Int × Int :=
  let toMs := toQuery.getD now
  let toMs := if toMs ≤ 0 ∨ now < toMs then now else toMs
  let fromMs := fromQuery.getD (wrapInt64 (toMs - defaultWindowMs))
  let fromMs := if toMs < fromMs then toMs else fromMs
  let fromMs :=
    if publicHistoryMaxWindowMs < wrapInt64 (toMs - fromMs) then
      wrapInt64 (toMs - publicHistoryMaxWindowMs)
    else fromMs
  let fromMs := if fromMs < 0 then 0 else fromMs
  (fromMs, toMs)

/-- `publicSevenDayWindow`. -/
def publicSevenDayWindow (fromQuery toQuery : Option Int) (now : Int) : Int × Int :=
  publicBoundedWindow fromQuery toQuery now publicHistoryMaxWindowMs

/-- `publicHistoryWindow`. -/
def publicHistoryWindow (fromQuery toQuery : Option Int) (now : Int) : Int × Int :=
  publicBoundedWindow fromQuery toQuery now publicHistoryDefaultWindowMs

/-- A window ends before the present, so that the store takes its end as it is. -/
theorem boundedHistoryTo_of_window {fromQuery toQuery : Option Int} {now fromMs toMs : Int}
    (hwindow : publicHistoryWindow fromQuery toQuery now = (fromMs, toMs)) (hpos : 0 < toMs) :
    boundedHistoryTo now toMs = toMs := by
  have hto : toMs ≤ now := by
    have hsnd := congrArg Prod.snd hwindow
    simp only [publicHistoryWindow, publicBoundedWindow] at hsnd
    split at hsnd <;> omega
  unfold boundedHistoryTo Database.maxFutureEdgeSkew
  dsimp only
  rw [if_neg (by omega)]

/-- The limit of a page: the query's, the default or the maximum. -/
def pageLimit (limitQuery : Option Int) (defaultLimit maxLimit : Int) : Nat :=
  let limit := limitQuery.getD defaultLimit
  let limit := if limit ≤ 0 then defaultLimit else limit
  (if maxLimit < limit then maxLimit else limit).toNat

/-- `historyRawPageSize`. -/
def historyRawPageSize (remaining : Nat) : Nat :=
  let limit := remaining * 4
  let limit := if limit < 200 then 200 else limit
  if 5000 < limit then 5000 else limit

/-! ## Requests and responses -/

/-- The query of a page request. -/
structure PageRequest where
  fromQuery : Option Int
  toQuery : Option Int
  limitQuery : Option Int
  cursor : Option HistoryCursor

/-- `PublicHistoryEvent`; `heardAt` is its field `At`. -/
structure PublicHistoryEvent where
  type : String
  heardAt : Int
  data : PublicData
  deriving DecidableEq

/-- `PublicHistoryWindow`. -/
structure PublicHistoryWindow where
  fromMs : Int
  toMs : Int
  count : Nat
  deriving DecidableEq

/-- `PublicHistoryResponse`. -/
structure PublicHistoryResponse where
  serverTime : Int
  events : List PublicHistoryEvent
  nextCursor : Option HistoryCursor
  window : PublicHistoryWindow
  deriving DecidableEq

/-! ## Rows of the projection -/

/-- `publicRoutePulseFromPacketPath`. -/
def publicRoutePulseFromPacketPath (packet : PublicPacketPath) : Option PublicRoutePulse :=
  if packet.segments = [] ∨ packet.heardAt ≤ 0 then none
  else
    let region := upperTrim packet.region
    some
      { seq := 0
        id := trimSpace packet.id
        iata := upperTrim packet.iata
        region := if region = "" then upperTrim packet.iata else region
        payloadTypeName := trimSpace packet.payloadTypeName
        messageSender := trimSpace packet.messageSender
        messageText := trimSpace packet.messageText
        messageAnchor := none
        heardAt := packet.heardAt
        segments := packet.segments }

section Env

variable [LiveEnv]

/-! ## Stored events -/

/-- `publicHistoryEvent`. -/
def publicHistoryEvent (raw : HistoryEvent) (observerLocations : PublicObserverLocationIndex)
    (index : PathHash3Index) : Option PublicHistoryEvent :=
  if raw.type = "activity" then
    match raw.edge, raw.packet with
    | some edge, _ => (publicActivityFromEdge edge).map fun activity =>
      { type := "activity", heardAt := raw.heardAt, data := .activity activity }
    | none, some packet =>
      let location := observerLocations.locationForPublicKey packet.observerPublicKey packet.iata
      some
        { type := "activity", heardAt := raw.heardAt
          data := .activity (publicActivityFromPacket packet [] location) }
    | none, none => none
  else if raw.type = "routePulse" then
    raw.edge.bind fun edge => (publicRoutePulseFromEdge edge index).map fun pulse =>
      { type := "routePulse", heardAt := raw.heardAt, data := .pulse pulse }
  else none

/-! ## The handler -/

variable (filter : PublicIATAFilter) (db : PathDatabase) (now fromMs toMs : Int) (limit : Nat)

/-- What the loop over the stored edges keeps. -/
def keepHistoryEvent (raw : HistoryEvent) : Option PublicHistoryEvent :=
  if !filter.allows raw.iata then none
  else
    publicHistoryEvent raw (buildPublicObserverLocationIndex db.nodes db.observers)
      (buildPublicPathHash3Index db.nodes db.observers)

/-- What the loop over the projection keeps. -/
def keepProjectedPulse (packet : PublicPacketPath) : Option PublicHistoryEvent :=
  if !filter.allows packet.iata then none
  else (publicRoutePulseFromPacketPath packet).map fun pulse =>
    { type := "routePulse", heardAt := packet.heardAt, data := .pulse pulse }

/-- The response with the events of a page. -/
def historyResponse (events : List PublicHistoryEvent) (nextCursor : Option HistoryCursor) :
    PublicHistoryResponse :=
  { serverTime := now, events, nextCursor, window := { fromMs, toMs, count := events.length } }

/-- What the loop over the stored edges asks for. -/
def historyQuery (cursor : Option HistoryCursor) (rawLimit : Nat) : HistoryQuery :=
  { fromMs, toMs, limit := rawLimit, cursor, newestFirst := false, iata := ""
    payloadTypeName := "" }

/-- What the loop over the projection asks for. -/
def historyPathQuery (cursor : Option HistoryCursor) (rawLimit : Nat) : PublicPacketPathQuery :=
  { fromMs, toMs, limit := rawLimit, cursor, newestFirst := false, iata := ""
    payloadTypeName := "", minHops := 0, messageOnly := false }

/-- A pass of the loop of `publicHistory` over the stored edges. -/
def historyRawPass :
    PageScan PublicHistoryEvent → PageScan PublicHistoryEvent × Bool :=
  rawPage (fun raw => some raw.cursor) (keepHistoryEvent filter db) limit
    (fun cursor rawLimit => db.publicHistoryEvents now (historyQuery fromMs toMs cursor rawLimit))
    fun s => historyRawPageSize (limit - s.found.length)

/-- The loop of `publicHistory` over the stored edges, and its response. Every pass
but the last reads a row, so that the edges bound the passes. -/
def publicHistoryRaw (cursor : Option HistoryCursor) : Option PublicHistoryResponse :=
  (runLoop (fun s => s.found.length < limit) (historyRawPass filter db now fromMs toMs limit)
    (db.edges.length + 1) (PageScan.start cursor)).map fun s =>
      historyResponse now fromMs toMs s.found
        (if limit ≤ s.found.length then s.nextCursor else none)

/-- A pass of the loop of `publicHistoryFromProjection`. -/
def historyProjectionPass :
    PageScan PublicHistoryEvent → PageScan PublicHistoryEvent × Bool :=
  projectionPage publicPacketProjectionCursor (keepProjectedPulse filter) limit
    (fun cursor rawLimit => db.publicPacketPaths now (historyPathQuery fromMs toMs cursor rawLimit))
    fun s =>
      min (historyRawPageSize (limit - s.found.length)) (publicPacketsMaxRawScan - s.scanned)

/-- `publicHistoryFromProjection`. -/
def publicHistoryFromProjection (cursor : Option HistoryCursor) : Option PublicHistoryResponse :=
  (runLoop (fun s => s.found.length < limit && s.scanned < publicPacketsMaxRawScan)
    (historyProjectionPass filter db now fromMs toMs limit) (db.packetPaths.length + 1)
    (PageScan.start cursor)).map fun s =>
      historyResponse now fromMs toMs s.found
        (if !s.exhausted ∧ (limit ≤ s.found.length ∨ publicPacketsMaxRawScan ≤ s.scanned) then
          s.nextCursor else none)

/-- `publicHistory`, where the reads of the projection succeed if `readable`. -/
def publicHistory (readable : Bool) (request : PageRequest) : Option PublicHistoryResponse :=
  let (fromMs, toMs) := publicHistoryWindow request.fromQuery request.toQuery now
  let limit := pageLimit request.limitQuery publicHistoryDefaultLimit publicHistoryMaxLimit
  if db.publicPacketPathProjectionComplete now fromMs toMs ∧ readable then
    publicHistoryFromProjection filter db now fromMs toMs limit request.cursor
  else publicHistoryRaw filter db now fromMs toMs limit request.cursor

end Env

end CartoLive.Api

/-!
## The history summary

`publicHistorySummary` of `routes.go`: the edges of a window, counted in buckets.
The width of a bucket is chosen for the window as it is asked for; then the
window is rounded to half minutes. A request that asks for a negative number of
buckets ends in a panic and has no response.
-/

namespace CartoLive.Api

open CartoLive.Lib CartoLive.Go CartoLive.Live CartoLive.Store

/-! ## Bucket widths -/

def publicHistoryTargetBuckets : Int := 96
def publicHistoryMaxBuckets : Int := 288
def publicHistorySummaryRoundMs : Int := 30000

/-- `ceilDiv`. -/
def ceilDiv (value divisor : Int) : Int :=
  if value ≤ 0 then 1 else (wrapInt64 (value + divisor - 1)).tdiv divisor

/-- `bucketsForSpan`. -/
def bucketsForSpan (span bucketMs : Int) : Int :=
  if span ≤ 0 ∨ bucketMs ≤ 0 then 1 else ceilDiv span bucketMs

/-- `defaultHistoryBucketMs`. -/
def defaultHistoryBucketMs (span : Int) : Int :=
  if span ≤ 0 then 60000
  else
    let bucketMs := ceilDiv span publicHistoryTargetBuckets
    if bucketMs < 60000 then 60000 else bucketMs

/-- The width that is asked for, or the default, at least a second. -/
def requestedBucketMs (span : Int) (bucketQuery : Option Int) : Int :=
  let bucketMs := bucketQuery.getD 0
  let bucketMs := if bucketMs ≤ 0 then defaultHistoryBucketMs span else bucketMs
  if bucketMs < 1000 then 1000 else bucketMs

/-- The width that the buckets of a window get. -/
def summaryBucketMs (span : Int) (bucketQuery : Option Int) : Int :=
  let bucketMs := requestedBucketMs span bucketQuery
  if publicHistoryMaxBuckets < bucketsForSpan span bucketMs then ceilDiv span publicHistoryMaxBuckets
  else bucketMs

/-- `canonicalHistorySummaryWindow`. -/
def canonicalHistorySummaryWindow (fromMs toMs : Int) : Int × Int :=
  let fromMs := fromMs.tdiv publicHistorySummaryRoundMs * publicHistorySummaryRoundMs
  let toMs := toMs.tdiv publicHistorySummaryRoundMs * publicHistorySummaryRoundMs
  (fromMs, if toMs < fromMs then fromMs else toMs)

/-! ## Queries -/

structure HistorySummaryRow where
  iata : String
  bucket : Int
  count : Int
  deriving DecidableEq

/-- `ORDER BY bucket ASC, iata ASC`. -/
def summaryKeyLe (a b : String × Int) : Prop := a.2 < b.2 ∨ a.2 = b.2 ∧ a.1 ≤ b.1

instance : DecidableRel summaryKeyLe := fun a b => by
  unfold summaryKeyLe
  infer_instance

/-- `WHERE heard_at_ms >= from AND heard_at_ms <= to`, with the bound on the end. -/
def summaryEdges (db : Database) (storeNow fromMs toMs : Int) : List EdgeEvent :=
  db.edges.filter fun edge =>
    fromMs ≤ edge.heardAt ∧ edge.heardAt ≤ boundedHistoryTo storeNow toMs

/-- `GROUP BY`: a row for every key, with the number of edges that have it. -/
def groupRows (keys : List (String × Int)) : List HistorySummaryRow :=
  (keys.dedup.insertionSort summaryKeyLe).map fun key =>
    { iata := key.1, bucket := key.2, count := (keys.countP fun other => other = key : Nat) }

/-- `PublicHistorySummary`. -/
def storePublicHistorySummary (db : Database) (storeNow fromMs toMs bucketMs : Int) :
    List HistorySummaryRow :=
  let bucketMs := if bucketMs ≤ 0 then 3600000 else bucketMs
  groupRows ((summaryEdges db storeNow fromMs toMs).map fun edge =>
    ((db.joined edge).iata, (edge.heardAt - fromMs).tdiv bucketMs))

/-- `PublicHistorySummaryTotals`. -/
def storePublicHistorySummaryTotals (db : Database) (storeNow fromMs toMs bucketMs : Int) :
    List HistorySummaryRow :=
  let bucketMs := if bucketMs ≤ 0 then 3600000 else bucketMs
  groupRows ((summaryEdges db storeNow fromMs toMs).map fun edge =>
    ("", (edge.heardAt - fromMs).tdiv bucketMs))

/-! ## The response -/

/-- `PublicHistorySummaryBucket`; `first` and `last` are its fields `Start` and `End`. -/
structure SummaryBucket where
  first : Int
  last : Int
  count : Int
  deriving DecidableEq

structure SummaryResponse where
  serverTime : Int
  fromMs : Int
  toMs : Int
  bucketMs : Int
  buckets : List SummaryBucket
  deriving DecidableEq

/-- The buckets of a window, without counts. -/
def emptyBuckets (fromMs toMs bucketMs : Int) : Option (List SummaryBucket) :=
  let size := bucketsForSpan (wrapInt64 (toMs - fromMs)) bucketMs
  if size < 0 then none
  else
    some ((List.range size.toNat).map fun (i : Nat) =>
      let first := wrapInt64 (fromMs + wrapInt64 (i * bucketMs))
      let last := wrapInt64 (first + bucketMs)
      { first, last := if toMs < last then toMs else last, count := 0 })

/-- What the loop over the rows does with one of them. -/
def addRow (f : PublicIATAFilter) (buckets : List SummaryBucket) (row : HistorySummaryRow) :
    List SummaryBucket :=
  if !f.allows row.iata ∨ row.bucket < 0 ∨ (buckets.length : Int) ≤ row.bucket then buckets
  else buckets.modify row.bucket.toNat fun bucket => { bucket with count := bucket.count + row.count }

/-- The read of the rows, of a server with an allow-list or of one without; `none` if it fails. -/
def summaryRows (f : PublicIATAFilter) (db : Database) (storeNow fromMs toMs bucketMs : Int)
    (fails : Bool) : Option (List HistorySummaryRow) :=
  if fails then none
  else if f.enabled then some (storePublicHistorySummary db storeNow fromMs toMs bucketMs)
  else some (storePublicHistorySummaryTotals db storeNow fromMs toMs bucketMs)

/-- `publicHistorySummary`, with the cached response of the rounded window, if there is one, and
the store's clock at the read. -/
def publicHistorySummary (f : PublicIATAFilter) (db : Database)
    (cached : Int → Int → Int → Option SummaryResponse) (fails : Bool) (now storeNow : Int)
    (fromQuery toQuery bucketQuery : Option Int) : Option SummaryResponse :=
  let (fromMs, toMs) := publicHistoryWindow fromQuery toQuery now
  let bucketMs := summaryBucketMs (wrapInt64 (toMs - fromMs)) bucketQuery
  let (fromMs, toMs) := canonicalHistorySummaryWindow fromMs toMs
  match cached fromMs toMs bucketMs with
  | some response => some { response with serverTime := now }
  | none =>
    (emptyBuckets fromMs toMs bucketMs).map fun buckets =>
      match summaryRows f db storeNow fromMs toMs bucketMs fails with
      | none => { serverTime := now, fromMs, toMs, bucketMs, buckets }
      | some rows =>
        { serverTime := now, fromMs, toMs, bucketMs, buckets := rows.foldl (addRow f) buckets }

end CartoLive.Api
