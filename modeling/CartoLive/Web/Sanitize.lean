import CartoLive.Web.AppState

/-!
# What the page makes of a recovered event

The sanitizers of `api.ts` that a page of recovered events goes through, the reducer's
entry for such events in `state.ts`, and the live envelope as the reducer gets it. A
sanitizer takes any JSON value; here it takes the records that the server writes, so that
a field has its type, and texts that are empty stand for absent ones. Integers, flags and
lists of texts pass unchanged.
-/

namespace CartoLive.Web

open CartoLive.Go CartoLive.Live CartoLive.Lib

/-! ## Texts and numbers -/

/-- The white space of `trim()`: that of Go without the next-line control, and the byte
order mark. -/
def isJsSpace (c : Char) : Bool := (isSpace c && c.toNat ≠ 0x85) || c.toNat = 0xFEFF

/-- `trim()`. -/
def trim (text : String) : String :=
  String.ofList ((text.toList.dropWhile isJsSpace).rdropWhile isJsSpace)

/-- Text without white space has nothing to trim. -/
theorem trim_eq_self {text : String} (h : ∀ c ∈ text.toList, isJsSpace c = false) :
    trim text = text := by
  unfold trim
  have hdrop : text.toList.dropWhile isJsSpace = text.toList := by
    cases hl : text.toList with
    | nil => rfl
    | cons c cs => exact List.dropWhile_cons_of_neg (by simp [h c (by simp [hl])])
  have hrdrop : text.toList.rdropWhile isJsSpace = text.toList := by
    refine List.rdropWhile_eq_self_iff.mpr fun hne => ?_
    simp [h _ (List.getLast_mem hne)]
  rw [hdrop, hrdrop, String.ofList_toList]

theorem trim_trim (text : String) : trim (trim text) = trim text := by
  simp only [trim, String.toList_ofList, dropWhile_rdropWhile_dropWhile,
    List.rdropWhile_idempotent]

/-- `sanitizeString`. -/
def sanitizeString (value fallback : String) : String :=
  if trim value = "" then fallback else trim value

/-- `sanitizeStringOrUndefined`, where the empty text is no text. -/
def sanitizeStringOrUndefined (value : String) : String := trim value

/-- `sanitizeNumber`. -/
def sanitizeNumber (value fallback : F64) : F64 :=
  if value.isNaN || value.isInf then fallback else value

/-- `normalizeNodeRole`. -/
def normalizeNodeRole (role : String) : String :=
  let next := toLower (sanitizeString role "")
  if next ∈ ["companion", "repeater", "room_server", "sensor"] then next else "unknown"

/-- `sanitizeActivityKind`. -/
def sanitizeActivityKind (value : String) : String :=
  let safe := sanitizeString value ""
  if safe ∈ ["packet", "route"] then safe else "packet"

/-- `sanitizeAnimationState`. -/
def sanitizeAnimationState (value : String) : String :=
  let safe := sanitizeString value ""
  if safe ∈ ["route", "observer", "unmapped"] then safe else "unmapped"

/-- `sanitizeResolutionBucket`. -/
def sanitizeResolutionBucket (value : String) : String :=
  let safe := sanitizeString value ""
  if safe ∈ ["routed", "observer_only", "unresolved_path", "missing_location", "rf_gated",
      "distance_gated", "not_map_safe"] then safe
  else "not_map_safe"

/-! ## Records -/

/-- `sanitizePublicStateNode`. -/
def sanitizePublicStateNode (item : PublicNode) : Option PublicNode :=
  let id := sanitizeString item.id ""
  if id = "" then none
  else
    some
      { seq := 0
        id
        label := sanitizeString item.label id
        role := normalizeNodeRole item.role
        isObserver := item.isObserver
        latitude := sanitizeNumber item.latitude (.fin 0)
        longitude := sanitizeNumber item.longitude (.fin 0)
        lastSeen := item.lastSeen
        firstSeen := item.firstSeen
        iatasHeardIn := item.iatasHeardIn
        regionsHeardIn := item.regionsHeardIn
        activityCount := item.activityCount }

/-- `sanitizePublicRouteEndpoint`. -/
def sanitizePublicRouteEndpoint (endpoint : PublicRouteEndpoint) : Option PublicRouteEndpoint :=
  let nodeID := sanitizeString endpoint.nodeID ""
  if nodeID = "" then none
  else
    some
      { nodeID
        label := sanitizeString endpoint.label nodeID
        lat := sanitizeNumber endpoint.lat (.fin 0)
        lng := sanitizeNumber endpoint.lng (.fin 0)
        pathHash3 := sanitizeStringOrUndefined endpoint.pathHash3 }

/-- `sanitizePublicStateSegment`. -/
def sanitizePublicStateSegment (item : PublicRouteSegment) : Option PublicRouteSegment :=
  let routeID := sanitizeString item.routeID ""
  match sanitizePublicRouteEndpoint item.source, sanitizePublicRouteEndpoint item.target with
  | some source, some target =>
    if routeID = "" then none
    else some { routeID, source, target, distanceKM := sanitizeNumber item.distanceKM (.fin 0) }
  | _, _ => none

/-- `sanitizePublicMessageAnchor` of an anchor that is there. -/
def sanitizePublicMessageAnchor (anchor : PublicMessageAnchor) : Option PublicMessageAnchor :=
  let label := sanitizeString anchor.label ""
  if label = "" then none
  else
    some
      { kind := sanitizeString anchor.kind ""
        nodeID := sanitizeStringOrUndefined anchor.nodeID
        label
        lat := sanitizeNumber anchor.lat (.fin 0)
        lng := sanitizeNumber anchor.lng (.fin 0) }

/-- `sanitizePublicObserverLocation` of a location that is there. -/
def sanitizePublicObserverLocation (location : PublicObserverLocation) :
    Option PublicObserverLocation :=
  let label := sanitizeString location.label ""
  if label = "" then none
  else
    some
      { label
        iata := sanitizeStringOrUndefined location.iata
        region := sanitizeStringOrUndefined location.region
        lat := sanitizeNumber location.lat (.fin 0)
        lng := sanitizeNumber location.lng (.fin 0) }

/-- `sanitizePublicStatePulse`; the server's pulse has no times of its own. -/
def sanitizePublicStatePulse (item : PublicRoutePulse) : Option LiveRoutePulse :=
  let id := sanitizeString item.id ""
  if id = "" then none
  else
    some
      { seq := item.seq
        id
        iata := sanitizeStringOrUndefined item.iata
        region := sanitizeStringOrUndefined item.region
        payloadTypeName := sanitizeString item.payloadTypeName "Message"
        messageSender := sanitizeStringOrUndefined item.messageSender
        messageText := sanitizeStringOrUndefined item.messageText
        messageAnchor := item.messageAnchor.bind sanitizePublicMessageAnchor
        heardAt := item.heardAt
        receivedAt := some item.heardAt
        displayAt := some item.heardAt
        segments := item.segments.filterMap sanitizePublicStateSegment }

/-- `sanitizePublicStateActivity`; the server's activity has no times of its own. -/
def sanitizePublicStateActivity (item : PublicActivity) : Option LiveActivity :=
  let id := sanitizeString item.id ""
  if id = "" then none
  else
    some
      { seq := item.seq
        id
        kind := sanitizeActivityKind item.kind
        payloadTypeName := sanitizeString item.payloadTypeName "Message"
        routeTypeName := sanitizeStringOrUndefined item.routeTypeName
        iata := sanitizeStringOrUndefined item.iata
        region := sanitizeStringOrUndefined item.region
        heardAt := item.heardAt
        receivedAt := some item.heardAt
        displayAt := some item.heardAt
        hopCount := item.hopCount
        hasRoute := item.hasRoute
        animationState := sanitizeAnimationState item.animationState
        resolutionBucket := sanitizeResolutionBucket item.resolutionBucket
        observerLocation := item.observerLocation.bind sanitizePublicObserverLocation
        routeIDs := item.routeIDs
        endpointLabels := item.endpointLabels
        messageSender := sanitizeStringOrUndefined item.messageSender
        messageText := sanitizeStringOrUndefined item.messageText
        messageAnchor := item.messageAnchor.bind sanitizePublicMessageAnchor }

/-! ## Events -/

/-- `PublicEvent` in the browser; the data of an event that the reducer does not know is
left out. -/
structure RecoveredEvent where
  seq : Int
  type : String
  occurredAt : Int
  receivedAt : Option Int
  iata : String
  region : String
  payloadTypeName : String
  message : Bool
  routeIDs : List String
  nodeIDs : List String
  data : Option LiveData
  deriving DecidableEq

/-- The data of an event in `sanitizePublicEvent`, with the record that its type says. -/
def sanitizePublicEventData (type : String) (data : PublicData) : Option (Option LiveData) :=
  match data with
  | .node item =>
    if type = "nodeUpdate" then
      (sanitizePublicStateNode item).map fun item => some (.nodeUpdate item)
    else some none
  | .activity item =>
    if type = "activity" then
      (sanitizePublicStateActivity item).map fun item => some (.activity item)
    else some none
  | .pulse item =>
    if type = "routePulse" then
      (sanitizePublicStatePulse item).map fun item => some (.routePulse item)
    else some none

/-- `sanitizePublicEvent`; a time of receipt that is zero is not written. -/
def sanitizePublicEvent (item : PublicEvent) : Option RecoveredEvent :=
  let type := sanitizeString item.type ""
  if item.seq ≤ 0 ∨ type = "" then none
  else
    (sanitizePublicEventData type item.data).map fun data =>
      { seq := item.seq
        type
        occurredAt := item.occurredAt
        receivedAt := if item.receivedAt = 0 then none else some item.receivedAt
        iata := sanitizeStringOrUndefined item.iata
        region := sanitizeStringOrUndefined item.region
        payloadTypeName := sanitizeStringOrUndefined item.payloadTypeName
        message := item.message
        routeIDs := item.routeIDs
        nodeIDs := item.nodeIDs
        data }

/-- The envelope that `applyPublicEvents` makes of an event. -/
def RecoveredEvent.envelope (event : RecoveredEvent) (data : LiveData) : LiveMessage :=
  let receivedAt := event.receivedAt.getD event.occurredAt
  { type := .event
    seq := some event.seq
    latestSeq := some event.seq
    serverTime := some receivedAt
    receivedAt := some receivedAt
    data := some data }

/-- `applyPublicEvents`. -/
def applyPublicEvents (state : AppState) (events : List RecoveredEvent) : AppState :=
  let envelopes := events.filterMap fun event => event.data.map event.envelope
  let next := applyPublicEnvelopes state envelopes false
  (events.filter fun event => event.data.isNone).foldl
    (fun next event => withLatestSeq next (some event.seq)) next

/-- The data of an envelope under its event, as parsed. -/
def parsedData (event : String) (data : PublicData) : Option LiveData :=
  match data with
  | .node item => if event = "nodeUpdate" then some (.nodeUpdate item) else none
  | .activity item =>
    if event = "activity" then
      some (.activity { item with receivedAt := none, displayAt := none })
    else none
  | .pulse item =>
    if event = "routePulse" then
      some (.routePulse { item with receivedAt := none, displayAt := none })
    else none

/-- A live envelope as the reducer gets it. -/
def PublicLiveEnvelope.parsed (message : PublicLiveEnvelope) : LiveMessage :=
  { type := message.type
    seq := message.seq
    latestSeq := message.latestSeq
    serverTime := message.serverTime
    receivedAt := message.receivedAt
    data := message.data.bind (parsedData message.event) }

end CartoLive.Web
