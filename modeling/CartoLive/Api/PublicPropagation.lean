import CartoLive.Api.PublicPackets
import CartoLive.Store.Propagation

/-!
# The propagation pages

`publicPropagation` of `routes.go`: the propagation events of a window and the
allowed regions, newest first. `publicAllowedPropagationEvents` reads them in
batches and hands out the cursor of the query, which is behind the last row of
the last batch.
-/

namespace CartoLive.Api

open CartoLive.Lib CartoLive.Go CartoLive.Live CartoLive.Store

def publicPropagationMaxLimit : Int := 200
def publicPropagationDefaultLimit : Int := 50

/-- The query of a request for propagation events. -/
structure PropagationRequest extends PageRequest where
  region : List String
  iata : List String

/-- `PublicPropagationConditions`, without the weather and the sun. -/
structure PublicPropagationConditions where
  serverTime : Int
  eventCount : Nat
  latestEvent : Option PublicPropagationEvent
  sourceStatus : String
  deriving DecidableEq

/-- `PublicPropagationResponse`. -/
structure PublicPropagationResponse where
  serverTime : Int
  conditions : PublicPropagationConditions
  events : List PublicPropagationEvent
  nextCursor : Option HistoryCursor
  window : PublicHistoryWindow
  deriving DecidableEq

/-- The variables of the loop of `publicAllowedPropagationEvents`. -/
structure PropagationScan where
  events : List PublicPropagationEvent
  nextCursor : Option HistoryCursor
  scanned : Nat

/-- How many rows the loop scans at most. -/
def propagationMaxRawScan : Nat := 1000

/-- How many rows the loop reads for the room that is left. -/
def propagationRawLimit (room : Nat) : Nat := min (max (room * 2) 50) 200

theorem propagationRawLimit_bounds (room : Nat) :
    0 < propagationRawLimit room ∧ propagationLimit (propagationRawLimit room) = propagationRawLimit room := by
  unfold propagationLimit propagationRawLimit
  rw [if_neg (by omega)]
  omega

variable (filter : PublicIATAFilter) (table : List PropagationRow) (now fromMs toMs : Int)
  (limit : Nat) (region : String)

/-- An event of an allowed region, or of none. -/
def allowedEvent (event : PublicPropagationEvent) : Bool :=
  event.region = "" || filter.allows event.region

/-- The loop over the events of one read. -/
def keepAllowed : List PublicPropagationEvent → List PublicPropagationEvent →
    List PublicPropagationEvent
  | [], events => events
  | event :: raw, events =>
    if !allowedEvent filter event then keepAllowed raw events
    else if limit ≤ (events ++ [event]).length then events ++ [event]
    else keepAllowed raw (events ++ [event])

/-- What the loop asks for. -/
def propagationQuery (cursor : Option HistoryCursor) (rawLimit : Nat) :
    PublicPropagationEventQuery :=
  { fromMs, toMs, limit := rawLimit, cursor, newestFirst := true, region }

/-- A pass of the loop, and whether it goes on. -/
def propagationPass (s : PropagationScan) : PropagationScan × Bool :=
  let (rawEvents, next) := publicPropagationEvents table now
    (propagationQuery fromMs toMs region s.nextCursor (propagationRawLimit (limit - s.events.length)))
  ({ events := keepAllowed filter limit rawEvents s.events, nextCursor := next
     scanned := s.scanned + rawEvents.length },
    next.isSome && !rawEvents.isEmpty)

/-- `publicAllowedPropagationEvents`. Every pass but the last reads a row, so that
the table bounds the passes. -/
def publicAllowedPropagationEvents (cursor : Option HistoryCursor) :
    Option (List PublicPropagationEvent × Option HistoryCursor) :=
  (runLoop (fun s => s.events.length < limit && s.scanned < propagationMaxRawScan)
    (propagationPass filter table now fromMs toMs limit region) (table.length + 1)
    { events := [], nextCursor := cursor, scanned := 0 }).map fun s => (s.events, s.nextCursor)

/-- `publicPropagation`; `restricted` if the configuration restricts the regions. -/
def publicPropagation (restricted : Bool) (request : PropagationRequest) :
    Option PublicPropagationResponse :=
  let (fromMs, toMs) := publicHistoryWindow request.fromQuery request.toQuery now
  let limit := pageLimit request.limitQuery publicPropagationDefaultLimit publicPropagationMaxLimit
  let region := firstUpperQuery (request.region ++ request.iata)
  if region ≠ "" && !filter.allows region then
    some
      { serverTime := now
        conditions :=
          { serverTime := now, eventCount := 0, latestEvent := none, sourceStatus := "restricted" }
        events := []
        nextCursor := none
        window := { fromMs, toMs, count := 0 } }
  else
    (publicAllowedPropagationEvents filter table now fromMs toMs limit region request.cursor).map
      fun (events, next) =>
        let conditions : PublicPropagationConditions :=
          if events ≠ [] then
            { serverTime := now, eventCount := events.length, latestEvent := events.head?
              sourceStatus := "ready" }
          else if region = "" && !restricted then
            let (latest, count) := latestPropagationConditions table now fromMs toMs
            { serverTime := now, eventCount := count, latestEvent := latest
              sourceStatus := if latest.isSome then "ready" else "no_recent_events" }
          else
            { serverTime := now, eventCount := events.length, latestEvent := none
              sourceStatus := "no_recent_events" }
        { serverTime := now, conditions, events, nextCursor := next
          window := { fromMs, toMs, count := events.length } }

end CartoLive.Api
