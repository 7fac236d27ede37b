import CartoLive.Store.EdgeRows
import CartoLive.Store.Nodes

/-!
# Edges

How `lifecycle.go` makes an edge of a resolved packet: the decision
(`edgeDecision`), the endpoints in path order (`routeEndpoints`), the segments
between them behind the distance gate (`buildEdgeEvent`), and the anchor of a
message. The store is read as it stands; a read that fails finds nothing.

`HaversineKM` computes with sines and cosines of doubles. It is a parameter:
nothing here depends on what it returns.
-/

namespace CartoLive.App

open CartoLive.Go CartoLive.Live CartoLive.Meshcore CartoLive.Resolve CartoLive.Store

/-! ## Data -/

/-- What the edge of a message is made from. -/
structure NormalizedMessage where
  publisherPK : String
  iata : String
  rssi : Option F64
  snr : Option F64
  heardAtMs : Int
  deriving DecidableEq

structure EdgeConfig where
  requireRSSIOrSNRForEdge : Bool
  maxUnverifiedEdgeKM : F64
  allowLongTraceEdges : Bool
  deriving DecidableEq

/-- The tables that endpoints are read from. -/
structure EdgeStore where
  tables : NodeTables
  observers : List Observer
  deriving DecidableEq

def statusMissingCoords : String := "missing_coordinates"
def statusMissingRF : String := "missing_rf_evidence"
def statusDistanceGate : String := "rejected_distance_gate"

/-- `Result.IsHigh`. -/
def isHigh (resolution : Result) : Bool := resolution.status = statusHigh

/-- `shouldRejectDistance`. -/
def shouldRejectDistance (distanceKM maxKM : F64) (isTrace allowLongTrace : Bool) : Bool :=
  if maxKM.le (.fin 0) then false
  else if distanceKM.le maxKM then false
  else if isTrace && allowLongTrace then false
  else true

/-! ## Endpoints -/

def displayName (name publicKey : String) : String :=
  if trimSpace name ≠ "" then name else String.ofList (publicKey.toList.take 8)

/-- `pathHash3`: six hex digits in capitals, or nothing. -/
def pathHash3 (publicKey : String) : String :=
  let digits := (upperTrim publicKey).toList.take 6
  if digits.length = 6 ∧ digits.all fun c => c.isDigit || c ∈ ['A', 'B', 'C', 'D', 'E', 'F'] then
    String.ofList digits
  else ""

section Endpoints

variable [LiveEnv]

/-- The endpoint of a record with these fields, if it has coordinates on the map. -/
def endpointAt (nodeID name publicKey : String) (latitude longitude : Option F64) :
    Option EdgeEndpoint :=
  match latitude, longitude with
  | some lat, some lng =>
    if validPublicCoords lat lng then
      some { nodeID, name := displayName name publicKey, lat, lng, pathHash3 := pathHash3 publicKey }
    else none
  | _, _ => none

/-- `nodeEndpoint`, where `hasCoords`. -/
def nodeEndpoint (n : Node) : Option EdgeEndpoint :=
  endpointAt n.nodeID n.name n.publicKey n.latitude n.longitude

/-- `candidateEndpoint`, where `candidateHasCoords`. -/
def candidateEndpoint (candidate : Candidate) : Option EdgeEndpoint :=
  endpointAt candidate.nodeID candidate.name candidate.publicKey candidate.latitude
    candidate.longitude

def observerRecordEndpoint (observer : Observer) : Option EdgeEndpoint :=
  endpointAt observer.publicKey observer.name observer.publicKey observer.latitude
    observer.longitude

omit [LiveEnv] in
def appendEndpoint (endpoints : List EdgeEndpoint) (endpoint : EdgeEndpoint) : List EdgeEndpoint :=
  if endpoints.getLast?.any fun last => last.nodeID = endpoint.nodeID then endpoints
  else endpoints ++ [endpoint]

omit [LiveEnv] in
/-- `ObserverByPublicKeyIATA`. -/
def EdgeStore.observerByPublicKeyIATA (store : EdgeStore) (publicKey iata : String) :
    Option Observer :=
  store.observers.find? fun o => o.publicKey = toUpper publicKey ∧ o.iata = toUpper iata

omit [LiveEnv] in
def fullPublicKeyFromPayload (parsed : Meshcore.ParsedPacket) : String :=
  if parsed.payloadType = payloadAnonReq ∧ 33 ≤ parsed.payload.length then
    upperHex ((parsed.payload.drop 1).take 32)
  else ""

omit [LiveEnv] in
def sourcePrefixFromPayload (parsed : Meshcore.ParsedPacket) : Option String :=
  if parsed.payloadType ∈ [payloadRequest, payloadResponse, payloadPlainText, payloadPath] ∧
      2 ≤ parsed.payload.length then
    some (upperHex ((parsed.payload.drop 1).take 1))
  else none

variable (store : EdgeStore) (msg : NormalizedMessage) (parsed : Meshcore.ParsedPacket)
  (resolution : Result) (advertNode : Option Node)

/-- The endpoint of the only candidate for the source prefix that has coordinates. -/
def prefixEndpoint : Option EdgeEndpoint :=
  match sourcePrefixFromPayload parsed with
  | none => none
  | some chunk =>
    match (store.tables.candidateTables.candidatesByPrefix
        { iata := msg.iata, hashSize := 1, keyPrefix := chunk }).filterMap candidateEndpoint with
    | [endpoint] => some endpoint
    | _ => none

def originEndpoint : Option EdgeEndpoint :=
  match advertNode.bind nodeEndpoint with
  | some endpoint => some endpoint
  | none =>
    let publicKey := fullPublicKeyFromPayload parsed
    let stored := if publicKey ≠ "" then store.tables.nodeByPublicKey publicKey else none
    match stored.bind nodeEndpoint with
    | some endpoint => some endpoint
    | none => prefixEndpoint store msg parsed

def observerEndpoint : Option EdgeEndpoint :=
  match (store.tables.nodeByPublicKey msg.publisherPK).bind nodeEndpoint with
  | some endpoint => some endpoint
  | none => (store.observerByPublicKeyIATA msg.publisherPK msg.iata).bind observerRecordEndpoint

/-- The loop over the resolved hops, with the endpoints so far. -/
def hopEndpoints (endpoints : List EdgeEndpoint) :
    List ResolvedHop → Except (String × String) (List EdgeEndpoint)
  | [] => .ok endpoints
  | hop :: rest =>
    match candidateEndpoint hop.candidate with
    | none => .error (statusMissingCoords, "resolved hop missing coordinates")
    | some endpoint => hopEndpoints (appendEndpoint endpoints endpoint) rest

/-- `appendEndpoint` of an endpoint that was found. -/
def appendFound (endpoints : List EdgeEndpoint) (found : Option EdgeEndpoint) : List EdgeEndpoint :=
  found.elim endpoints (appendEndpoint endpoints)

/-- `routeEndpoints`: the endpoints, or a status other than `high` and its reason. -/
def routeEndpoints : Except (String × String) (List EdgeEndpoint) :=
  if parsed.hopCount = 0 then
    if parsed.payloadType ≠ payloadAdvert then .error (statusNoPath, resolution.reason)
    else
      match advertNode.bind nodeEndpoint with
      | none => .error (statusNoPath, resolution.reason)
      | some advert =>
        match observerEndpoint store msg with
        | none => .error (statusMissingCoords, "observer has no coordinates")
        | some observer => .ok [advert, observer]
  else if isHigh resolution = false then .error (resolution.status, resolution.reason)
  else
    match hopEndpoints (appendFound [] (originEndpoint store msg parsed advertNode))
        resolution.hops with
    | .error failure => .error failure
    | .ok endpoints =>
      let endpoints := appendFound endpoints (observerEndpoint store msg)
      if endpoints.length < 2 then
        .error (statusMissingCoords, "not enough positioned endpoints for a real segment")
      else .ok endpoints

end Endpoints

/-! ## Edges -/

section Edges

variable [LiveEnv] (haversineKM : F64 → F64 → F64 → F64 → F64) (config : EdgeConfig)
  (store : EdgeStore) (msg : NormalizedMessage) (parsed : Meshcore.ParsedPacket)
  (resolution : Result) (advertNode : Option Node)

omit [LiveEnv] in
/-- Strict mode, and no signal. -/
def missingSignal : Bool :=
  config.requireRSSIOrSNRForEdge && msg.rssi.isNone && msg.snr.isNone

/-- `edgeDecision`: the status and its reason. -/
def edgeDecision : String × String :=
  if parsed.invalidForMap then (statusInvalidForMap, parsed.invalidReason)
  else if missingSignal config msg then
    (statusMissingRF, "strict mode requires RSSI or SNR")
  else if 0 < parsed.hopCount ∧ isHigh resolution = false then
    (resolution.status, resolution.reason)
  else
    match routeEndpoints store msg parsed resolution advertNode with
    | .error failure => failure
    | .ok _ => (statusHigh, "resolved_path_high_confidence")

omit [LiveEnv] in
/-- The segment between two endpoints. -/
def segmentBetween (source target : EdgeEndpoint) : SignalSegment :=
  { source, target, distanceKM := haversineKM source.lat source.lng target.lat target.lng
    snr := msg.snr, rssi := msg.rssi }

omit [LiveEnv] in
/-- The loop over consecutive endpoints. -/
def buildSegments : List EdgeEndpoint → Except (String × String) (List SignalSegment)
  | source :: target :: rest =>
    let segment := segmentBetween haversineKM msg source target
    if shouldRejectDistance segment.distanceKM config.maxUnverifiedEdgeKM
        (parsed.payloadType = payloadTrace) config.allowLongTraceEdges then
      .error (statusDistanceGate, "segment exceeds MAX_UNVERIFIED_EDGE_KM")
    else (buildSegments (target :: rest)).map fun segments => segment :: segments
  | _ => .ok []

def messageAnchorEndpoint (decodedMessage : DecodedPublicMessage) : Option MessageAnchor :=
  if trimSpace decodedMessage.text = "" then none
  else
    match advertNode.bind nodeEndpoint with
    | some endpoint => some { kind := "source", endpoint }
    | none =>
      match originEndpoint store msg parsed advertNode with
      | some endpoint => some { kind := "source", endpoint }
      | none => (observerEndpoint store msg).map fun endpoint => { kind := "observer", endpoint }

/-- `buildEdgeEvent`: the edge, or a status other than `high` and its reason. -/
def buildEdgeEvent (observationID : Int) (decodedMessage : DecodedPublicMessage) :
    Except (String × String) BuiltEdge :=
  if missingSignal config msg then .error (statusMissingRF, "strict mode requires RSSI or SNR")
  else
    match routeEndpoints store msg parsed resolution advertNode with
    | .error failure => .error failure
    | .ok endpoints =>
      (buildSegments haversineKM config msg parsed endpoints).map fun segments =>
        { packetHash := parsed.packetHash
          observationID
          iata := toUpper msg.iata
          payloadType := parsed.payloadType
          payloadTypeName := parsed.payloadTypeName
          messageSender := decodedMessage.sender
          messageText := decodedMessage.text
          messageAnchor := messageAnchorEndpoint store msg parsed advertNode decodedMessage
          heardAt := msg.heardAtMs
          segments
          renderReason := "resolved_path_high_confidence" }

end Edges

end CartoLive.App
