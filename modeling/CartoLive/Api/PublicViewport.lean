import CartoLive.Go.Json
import CartoLive.Live.Events
import CartoLive.Live.Hub
import CartoLive.Mqtt.Extract

/-!
# The viewport box

`parseBBox` and `publicEventInBBox` of `public_extended.go`. The test reads the JSON
of a stored event into one struct that has the coordinates of every kind of data;
what the JSON does not have stays zero. The syntax of finite numbers is a parameter,
as in `Mqtt.Extract`.
-/

/-!
## Public records as JSON

What `json.Marshal` makes of the data of a public event, member by member in the
order of the structs; it fails on a coordinate or distance that is not finite.
`nilSlices` says that slices without items are nil and not empty.
-/

namespace CartoLive.Live

open CartoLive.Go
open CartoLive.Go.Json (ofFloat ofInt ofSlice ofTexts omitEmpty omitText omitTexts omitNil)

variable (nilSlices : Bool)

def PublicNode.toJSON (node : PublicNode) : Option Json :=
  (ofFloat node.latitude).bind fun latitude =>
    (ofFloat node.longitude).map fun longitude =>
      .object
        (omitEmpty "seq" (node.seq = 0) (ofInt node.seq) ++
          [("id", .text node.id), ("label", .text node.label), ("role", .text node.role)] ++
          omitEmpty "isObserver" (!node.isObserver) (.bool node.isObserver) ++
          [("latitude", latitude), ("longitude", longitude), ("lastSeen", ofInt node.lastSeen),
            ("firstSeen", ofInt node.firstSeen),
            ("iatasHeardIn", ofTexts nilSlices node.iatasHeardIn)] ++
          omitTexts "regionsHeardIn" node.regionsHeardIn ++
          [("activityCount", ofInt node.activityCount)])

def PublicRouteEndpoint.toJSON (endpoint : PublicRouteEndpoint) : Option Json :=
  (ofFloat endpoint.lat).bind fun lat =>
    (ofFloat endpoint.lng).map fun lng =>
      .object
        ([("nodeId", .text endpoint.nodeID), ("label", .text endpoint.label), ("lat", lat),
            ("lng", lng)] ++
          omitText "pathHash3" endpoint.pathHash3)

def PublicRouteSegment.toJSON (segment : PublicRouteSegment) : Option Json :=
  segment.source.toJSON.bind fun source =>
    segment.target.toJSON.bind fun target =>
      (ofFloat segment.distanceKM).map fun distanceKM =>
        .object
          [("routeId", .text segment.routeID), ("from", source), ("to", target),
            ("distanceKm", distanceKM)]

def PublicObserverLocation.toJSON (location : PublicObserverLocation) : Option Json :=
  (ofFloat location.lat).bind fun lat =>
    (ofFloat location.lng).map fun lng =>
      .object
        ([("label", .text location.label)] ++ omitText "iata" location.iata ++
          omitText "region" location.region ++ [("lat", lat), ("lng", lng)])

def PublicMessageAnchor.toJSON (anchor : PublicMessageAnchor) : Option Json :=
  (ofFloat anchor.lat).bind fun lat =>
    (ofFloat anchor.lng).map fun lng =>
      .object
        ([("kind", .text anchor.kind)] ++ omitText "nodeId" anchor.nodeID ++
          [("label", .text anchor.label), ("lat", lat), ("lng", lng)])

def PublicActivity.toJSON (item : PublicActivity) : Option Json :=
  (omitNil "observerLocation" PublicObserverLocation.toJSON item.observerLocation).bind
    fun observerLocation =>
      (omitNil "messageAnchor" PublicMessageAnchor.toJSON item.messageAnchor).map
        fun messageAnchor =>
          .object
            (omitEmpty "seq" (item.seq = 0) (ofInt item.seq) ++
              [("id", .text item.id), ("kind", .text item.kind),
                ("payloadTypeName", .text item.payloadTypeName)] ++
              omitText "routeTypeName" item.routeTypeName ++ omitText "iata" item.iata ++
              omitText "region" item.region ++
              [("heardAt", ofInt item.heardAt), ("hopCount", ofInt item.hopCount),
                ("hasRoute", .bool item.hasRoute), ("animationState", .text item.animationState),
                ("resolutionBucket", .text item.resolutionBucket)] ++
              observerLocation ++ omitTexts "routeIds" item.routeIDs ++
              omitTexts "endpointLabels" item.endpointLabels ++
              omitText "messageSender" item.messageSender ++
              omitText "messageText" item.messageText ++ messageAnchor)

def PublicRoutePulse.toJSON (pulse : PublicRoutePulse) : Option Json :=
  (omitNil "messageAnchor" PublicMessageAnchor.toJSON pulse.messageAnchor).bind
    fun messageAnchor =>
      (pulse.segments.mapM PublicRouteSegment.toJSON).map fun segments =>
        .object
          (omitEmpty "seq" (pulse.seq = 0) (ofInt pulse.seq) ++ [("id", .text pulse.id)] ++
            omitText "iata" pulse.iata ++ omitText "region" pulse.region ++
            [("payloadTypeName", .text pulse.payloadTypeName)] ++
            omitText "messageSender" pulse.messageSender ++
            omitText "messageText" pulse.messageText ++ messageAnchor ++
            [("heardAt", ofInt pulse.heardAt), ("segments", ofSlice nilSlices segments)])

/-- `json.Marshal` of an event's data. -/
def PublicData.toJSON : PublicData → Option Json
  | .node item => item.toJSON nilSlices
  | .activity item => item.toJSON
  | .pulse item => item.toJSON nilSlices

end CartoLive.Live

namespace CartoLive.Api

open CartoLive.Go CartoLive.Live

/-! ## The box -/

/-- The separators of a box. -/
def bboxSeparator (c : Char) : Bool :=
  c = ',' || c = ';' || c = ' ' || c = '\t' || c = '\n' || c = '\r'

/-- The fields of a text, with the field being read. -/
def fieldsFuncFrom (separator : Char → Bool) : List Char → List Char → List (List Char)
  | [], field => if field = [] then [] else [field.reverse]
  | c :: cs, field =>
    if separator c then
      if field = [] then fieldsFuncFrom separator cs []
      else field.reverse :: fieldsFuncFrom separator cs []
    else fieldsFuncFrom separator cs (c :: field)

/-- `strings.FieldsFunc`. -/
def fieldsFunc (separator : Char → Bool) (s : String) : List String :=
  (fieldsFuncFrom separator s.toList []).map String.ofList

/-- A number of a box. -/
def parseBBoxField (parseNumber : String → Option ℚ) (field : String) : Option F64 :=
  (Mqtt.parseFloat parseNumber (trimSpace field)).filter fun value => !value.isInf && !value.isNaN

/-- `parseBBox`. -/
def parseBBox (parseNumber : String → Option ℚ) (raw : String) : Option (List F64) :=
  match (fieldsFunc bboxSeparator raw).map (parseBBoxField parseNumber) with
  | [some west, some south, some east, some north] =>
    if east.le west || north.le south || south.lt (.fin (-90)) || (F64.fin 90).lt north ||
        west.lt (.fin (-180)) || (F64.fin 180).lt east then none
    else some [west, south, east, north]
  | _ => none

/-! ## The test -/

structure Point where
  lat : F64
  lng : F64
  deriving DecidableEq

def Point.zero : Point := { lat := .fin 0, lng := .fin 0 }

/-- The struct that the JSON of an event is read into. -/
structure Candidate where
  latitude : F64
  longitude : F64
  observerLocation : Option Point
  messageAnchor : Option Point
  segments : List (Point × Point)
  deriving DecidableEq

def Candidate.zero : Candidate :=
  { latitude := .fin 0, longitude := .fin 0, observerLocation := none, messageAnchor := none
    segments := [] }

def pointFields : List (Json.Field Point) :=
  [{ name := "lat", read := Json.readFloat fun lat point => { point with lat } },
    { name := "lng", read := Json.readFloat fun lng point => { point with lng } }]

def readPoint : Json → Point → Option Point := Json.readStruct pointFields

def segmentFields : List (Json.Field (Point × Point)) :=
  [{ name := "from"
     read := fun j segment => (readPoint j segment.1).map fun source => (source, segment.2) },
    { name := "to"
      read := fun j segment => (readPoint j segment.2).map fun target => (segment.1, target) }]

def readSegment : Json → Point × Point → Option (Point × Point) := Json.readStruct segmentFields

def candidateFields : List (Json.Field Candidate) :=
  [{ name := "latitude", read := Json.readFloat fun latitude c => { c with latitude } },
    { name := "longitude", read := Json.readFloat fun longitude c => { c with longitude } },
    { name := "observerLocation"
      read := Json.readPointer Point.zero readPoint Candidate.observerLocation
        fun observerLocation c => { c with observerLocation } },
    { name := "messageAnchor"
      read := Json.readPointer Point.zero readPoint Candidate.messageAnchor
        fun messageAnchor c => { c with messageAnchor } },
    { name := "segments"
      read := Json.readSlice (Point.zero, Point.zero) readSegment
        fun segments c => { c with segments } }]

/-- `json.Unmarshal` into the candidate. -/
def readCandidate (raw : Json) : Option Candidate :=
  Json.readStruct candidateFields raw Candidate.zero

def Point.inBBox (point : Point) (bbox : List F64) : Bool := pointInBBox point.lng point.lat bbox

/-- `publicEventInBBox` of an event whose data is the JSON of its row. -/
def publicEventInBBox (raw : Json) (bbox : List F64) : Bool :=
  if bbox.length ≠ 4 then true
  else
    match readCandidate raw with
    | none => false
    | some c =>
      pointInBBox c.longitude c.latitude bbox ||
        c.observerLocation.any (fun point => point.inBBox bbox) ||
        c.messageAnchor.any (fun point => point.inBBox bbox) ||
        c.segments.any fun segment => segment.1.inBBox bbox || segment.2.inBBox bbox

end CartoLive.Api
