import CartoLive.Lib.TSys
import CartoLive.Web.PacketRows
import CartoLive.Web.Sanitize

/-!
# The requests of the packets panel

`PacketsPanel.tsx`: the effect that asks for the newest packets of the filters, the interval and
the button that ask again, the button for older packets, and what their answers do to the list.
An answer comes page by page (`fetchPacketPages`). A request that has been aborted rejects, as
`fetch` does with the signal of its controller; any other request gets its next page or rejects
at any time.

The live rows, the scrolling and the time of the last check are left out.
-/

namespace CartoLive.Web.PacketsPanel

open CartoLive.Lib CartoLive.Live CartoLive.Web

/-! ## Requests and answers -/

def PACKETS_PAGE_LIMIT : ℕ := 500
def PACKETS_RETAINED_LIMIT : ℕ := 5000
def PACKETS_FILTER_SCAN_PAGES : ℕ := 3

structure PacketFilters where
  query : String
  iata : String
  payload : String
  minHops : Int
  messageOnly : Bool
  deriving DecidableEq

def hasActivePacketFilters (filters : PacketFilters) : Bool :=
  trim filters.query ≠ "" ∨ filters.iata ≠ "" ∨ filters.payload ≠ "" ∨ filters.minHops ≠ 0 ∨
    filters.messageOnly

/-- `PublicHistoryWindow`; its bounds are `from` and `to`. -/
structure HistoryWindow where
  fromMs : Int
  toMs : Int
  count : ℕ
  deriving DecidableEq

def packetWindowForScope (now scopeMs : Int) : Int × Int :=
  let toMs := max 0 now
  (max 0 (toMs - scopeMs), toMs)

structure PacketScan where
  eventsScanned : Int
  scanLimit : Int
  filtered : Bool
  partially : Bool
  deriving DecidableEq

/-- `PublicPacketsResponse`; without a cursor `nextCursor` is empty. -/
structure PacketsResponse where
  packets : List PublicPacketPath
  window : HistoryWindow
  nextCursor : String
  scan : Option PacketScan
  deriving DecidableEq

/-! ## The pages of an answer -/

/-- The variables of the loop of `fetchPacketPages`. -/
structure PageLoop where
  packets : List PublicPacketPath
  nextCursor : String
  latestWindow : Option HistoryWindow
  eventsScanned : Int
  scanLimit : Int
  pages : ℕ
  deriving DecidableEq

def PageLoop.start (cursor : String) : PageLoop :=
  { packets := [], nextCursor := cursor, latestWindow := none, eventsScanned := 0, scanLimit := 0
    pages := 0 }

/-- One turn of the loop. -/
def PageLoop.next (loop : PageLoop) (response : PacketsResponse) : PageLoop :=
  { packets := loop.packets ++ response.packets
    nextCursor := response.nextCursor
    latestWindow := some response.window
    eventsScanned := loop.eventsScanned + (response.scan.map PacketScan.eventsScanned).getD 0
    scanLimit := loop.scanLimit + (response.scan.map PacketScan.scanLimit).getD 0
    pages := loop.pages + 1 }

/-- Whether the loop goes on behind a page. -/
def PageLoop.continues (loop : PageLoop) (filters : PacketFilters) : Bool :=
  hasActivePacketFilters filters ∧ loop.nextCursor ≠ "" ∧
    loop.packets.length < PACKETS_PAGE_LIMIT ∧ loop.pages < PACKETS_FILTER_SCAN_PAGES

structure PacketPages where
  packets : List PublicPacketPath
  nextCursor : String
  window : HistoryWindow
  scan : PacketScan
  deriving DecidableEq

/-- What `fetchPacketPages` returns behind its loop. -/
def PageLoop.result (loop : PageLoop) (fromMs toMs : Int) (filters : PacketFilters) : PacketPages :=
  let deduped := (dedupePackets loop.packets).take PACKETS_PAGE_LIMIT
  let window := loop.latestWindow.getD { fromMs, toMs, count := 0 }
  { packets := deduped
    nextCursor := loop.nextCursor
    window := { window with count := deduped.length }
    scan :=
      { eventsScanned := loop.eventsScanned
        scanLimit := loop.scanLimit
        filtered := hasActivePacketFilters filters
        partially := loop.nextCursor ≠ "" } }

def capPackets (items : List PublicPacketPath) : List PublicPacketPath :=
  (dedupePackets items).take PACKETS_RETAINED_LIMIT

/-! ## The panel -/

inductive SearchState
  | idle
  | searching
  | more
  | ended
  deriving DecidableEq

/-- A call of `refresh` or of `loadOlder` with what it has closed over. -/
structure PanelRequest where
  older : Bool
  /-- Of its controller. -/
  aborted : Bool
  /-- The variable `active` of a `refresh`. -/
  active : Bool
  generation : ℕ
  filterGeneration : ℕ
  fromMs : Int
  toMs : Int
  filters : PacketFilters
  /-- The cursor that it begins with. -/
  cursor : String
  loop : PageLoop
  settled : Bool
  deriving DecidableEq

structure Panel where
  debouncedFilters : PacketFilters
  scopeMs : Int
  packets : List PublicPacketPath
  windowInfo : Option HistoryWindow
  scanInfo : Option PacketScan
  nextCursor : String
  loading : Bool
  loadingMore : Bool
  searchState : SearchState
  error : Option String
  mounted : Bool
  requestGeneration : ℕ
  filterGeneration : ℕ
  /-- The request whose controller is in `requestAbortRef`. -/
  requestAbort : Option ℕ
  /-- The request that the clean-up of the effect cancels. -/
  effectRequest : Option ℕ
  requests : List PanelRequest
  deriving DecidableEq

inductive Act
  /-- The effect runs: at the start, or because the filters or the scope have changed. -/
  | refilter (filters : PacketFilters) (scopeMs now : Int)
  /-- The interval or the button. -/
  | refresh (now : Int)
  | loadOlder
  /-- The next page of a request. -/
  | page (id : ℕ) (response : PacketsResponse)
  | reject (id : ℕ) (message : String)
  | unmount

namespace Panel

/-- `controller.abort()`. -/
def abort (p : Panel) (id : Option ℕ) : Panel :=
  match id with
  | none => p
  | some id => { p with requests := p.requests.modify id fun r => { r with aborted := true } }

def searching (filters : PacketFilters) : SearchState :=
  if hasActivePacketFilters filters then .searching else .idle

/-- `refresh`. -/
def refresh (p : Panel) (now : Int) : Panel :=
  let p := p.abort p.requestAbort
  let window := packetWindowForScope now p.scopeMs
  let request : PanelRequest :=
    { older := false, aborted := false, active := true
      generation := p.requestGeneration + 1, filterGeneration := p.filterGeneration + 1
      fromMs := window.1, toMs := window.2, filters := p.debouncedFilters, cursor := ""
      loop := .start "", settled := false }
  { p with
    requestAbort := some p.requests.length
    requestGeneration := p.requestGeneration + 1
    filterGeneration := p.filterGeneration + 1
    loading := true
    error := none
    searchState := searching p.debouncedFilters
    requests := p.requests ++ [request] }

/-- What `refresh` returns for the effect: it cancels the request. -/
def cancel (p : Panel) (id : ℕ) : Panel :=
  let requests := p.requests.modify id fun r => { r with active := false, aborted := true }
  { p with
    requests
    requestAbort := if p.requestAbort = some id then none else p.requestAbort }

/-- The clean-up of the effect. -/
def cleanUp (p : Panel) : Panel :=
  match p.effectRequest with
  | none => p
  | some id => { p.cancel id with effectRequest := none }

/-- The effect. -/
def refilter (p : Panel) (filters : PacketFilters) (scopeMs now : Int) : Panel :=
  let p := { p.cleanUp with debouncedFilters := filters, scopeMs }
  { p.refresh now with effectRequest := some p.requests.length }

/-- `loadOlder`. -/
def loadOlder (p : Panel) : Panel :=
  match p.windowInfo with
  | none => p
  | some window =>
    if p.nextCursor = "" ∨ p.loadingMore then p
    else
      let p := p.abort p.requestAbort
      let request : PanelRequest :=
        { older := true, aborted := false, active := true
          generation := p.requestGeneration, filterGeneration := p.filterGeneration
          fromMs := window.fromMs, toMs := window.toMs, filters := p.debouncedFilters
          cursor := p.nextCursor, loop := .start p.nextCursor, settled := false }
      { p with
        requestAbort := some p.requests.length
        loadingMore := true
        error := none
        searchState := searching p.debouncedFilters
        requests := p.requests ++ [request] }

/-- Whether a request still counts: the tests of its `then`. -/
def accepts (p : Panel) (r : PanelRequest) : Bool :=
  if r.older then
    r.aborted = false ∧ p.mounted ∧ r.generation = p.requestGeneration ∧
      r.filterGeneration = p.filterGeneration
  else r.active ∧ p.mounted ∧ r.generation = p.requestGeneration

/-- The `then` of a request. -/
def apply (p : Panel) (r : PanelRequest) (pages : PacketPages) : Panel :=
  if p.accepts r then
    { p with
      packets :=
        if r.older then capPackets (p.packets ++ pages.packets) else capPackets pages.packets
      windowInfo := some pages.window
      scanInfo := some pages.scan
      nextCursor := pages.nextCursor
      searchState := if pages.nextCursor ≠ "" then .more else .ended }
  else p

/-- The `finally` of a request. -/
def finish (p : Panel) (id : ℕ) (r : PanelRequest) : Panel :=
  if r.older then
    if p.mounted ∧ r.generation = p.requestGeneration ∧ r.filterGeneration = p.filterGeneration then
      { p with
        requestAbort := if p.requestAbort = some id then none else p.requestAbort
        loadingMore := false }
    else p
  else if r.active ∧ p.mounted ∧ r.generation = p.requestGeneration then
    { p with
      requestAbort := if p.requestAbort = some id then none else p.requestAbort
      loading := false }
  else p

/-- The `catch` of a request that was not aborted. -/
def fail (p : Panel) (r : PanelRequest) (message : String) : Panel :=
  if r.older then
    if p.mounted ∧ r.generation = p.requestGeneration ∧ r.filterGeneration = p.filterGeneration then
      { p with error := some message }
    else p
  else if r.active ∧ p.mounted ∧ r.generation = p.requestGeneration then
    { p with error := some message }
  else p

def setRequest (p : Panel) (id : ℕ) (r : PanelRequest) : Panel :=
  { p with requests := p.requests.set id r }

/-- A page arrives: the loop goes on, or the request is done. -/
def page (p : Panel) (id : ℕ) (r : PanelRequest) (response : PacketsResponse) : Panel :=
  let r := { r with loop := r.loop.next response }
  if r.loop.continues r.filters then p.setRequest id r
  else
    let r := { r with settled := true }
    ((p.setRequest id r).apply r (r.loop.result r.fromMs r.toMs r.filters)).finish id r

/-- A request rejects: `catch` leaves out that it was aborted. -/
def reject (p : Panel) (id : ℕ) (r : PanelRequest) (message : String) : Panel :=
  let r := { r with settled := true }
  let p := p.setRequest id r
  (if r.aborted then p else p.fail r message).finish id r

/-- The clean-ups, in the order of the effects. -/
def unmount (p : Panel) : Panel :=
  let p := { p with mounted := false }
  (p.abort p.requestAbort).cleanUp

def step (p : Panel) : Act → Option Panel
  | .refilter filters scopeMs now => if p.mounted then some (p.refilter filters scopeMs now) else none
  | .refresh now => if p.mounted then some (p.refresh now) else none
  | .loadOlder => if p.mounted then some p.loadOlder else none
  | .page id response =>
    (p.requests[id]?).bind fun r =>
      if r.settled = false ∧ r.aborted = false then some (p.page id r response) else none
  | .reject id message =>
    (p.requests[id]?).bind fun r => if r.settled = false then some (p.reject id r message) else none
  | .unmount => if p.mounted then some p.unmount else none

/-- The state that the panel is mounted with. -/
def start (filters : PacketFilters) (scopeMs : Int) : Panel :=
  { debouncedFilters := filters, scopeMs, packets := [], windowInfo := none, scanInfo := none
    nextCursor := "", loading := true, loadingMore := false, searchState := .idle, error := none
    mounted := true, requestGeneration := 0, filterGeneration := 0, requestAbort := none
    effectRequest := none, requests := [] }

end Panel

def packetsPanel : TSys Panel Act where
  init p := ∃ filters scopeMs, p = .start filters scopeMs
  step := Panel.step

end CartoLive.Web.PacketsPanel
