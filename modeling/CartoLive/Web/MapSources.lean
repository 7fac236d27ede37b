import CartoLive.Go.Numbers
import CartoLive.Lib.Keyed
import CartoLive.Web.NetGraphLayout
import CartoLive.Web.Numbers
import CartoLive.Web.SourceDataQueue

/-!
# The sources of the map

The signatures and the features of `nodeSource.ts`, `routeSource.ts` and `activityHeatmap.ts`, and
those of the nodes, the heat map and the propagation events in `CanadaMap.tsx`. `Math` and the text
of a number are given. A set is the list of its members, and a `Map` that is iterated the list of
its entries; of an endpoint only what is read is kept.
-/

namespace CartoLive.Web.MapSources

open CartoLive.Go CartoLive.Lib
open CartoLive.Web.Graph (sortedTexts)

/-! ## Numbers -/

/-- What the code takes of the language about numbers. A text of a number reads back, and is made
of digits, letters, the point and signs. -/
structure Numbers where
  text : F64 → String
  localeText : F64 → String
  sqrt : F64 → F64
  pow : F64 → F64 → F64
  log1p : F64 → F64
  text_injective : Function.Injective text
  text_plain : ∀ x, ∀ c ∈ (text x).toList, c ≠ ':' ∧ c ≠ '|' ∧ c ≠ '~' ∧ c ≠ ','

/-- IEEE `-`. -/
def minus : F64 → F64 → F64
  | x, .nan => x.add .nan
  | x, .inf negative => x.add (.inf !negative)
  | x, .fin y => x.add (.fin (-y))

/-- IEEE `*`. -/
def times : F64 → F64 → F64
  | .nan, _ | _, .nan => .nan
  | .inf x, .inf y => .inf (x != y)
  | .inf x, .fin y | .fin y, .inf x => if y = 0 then .nan else .inf (x != decide (y < 0))
  | .fin x, .fin y => .ofRat (x * y)

/-- IEEE `/`. -/
def dividedBy : F64 → F64 → F64
  | .nan, _ | _, .nan | .inf _, .inf _ => .nan
  | .inf x, .fin y => .inf (x != decide (y < 0))
  | .fin _, .inf _ => .fin 0
  | .fin x, .fin y =>
    if y = 0 then if x = 0 then .nan else .inf (decide (x < 0)) else .ofRat (x / y)

def isFinite (x : F64) : Bool := !(x.isNaN || x.isInf)

/-- `Math.max`. -/
def max (x y : F64) : F64 := if x.isNaN || y.isNaN then .nan else if x.lt y then y else x

/-- `Math.min`. -/
def min (x y : F64) : F64 := if x.isNaN || y.isNaN then .nan else if y.lt x then y else x

/-- `Math.round`. -/
def round : F64 → F64
  | .fin x => .fin ⌊x + 1 / 2⌋
  | x => x

variable (numbers : Numbers)

/-- `toFixed`. -/
def fixed (x : F64) (digits : Nat) : String :=
  match x with
  | .fin value => if |value| < 10 ^ 21 then toFixed value digits else numbers.text x
  | x => numbers.text x

/-! ## Records -/

inductive NodeRole
  | companion
  | repeater
  | roomServer
  | sensor
  | unknown
  deriving DecidableEq

def NodeRole.text : NodeRole → String
  | .companion => "companion"
  | .repeater => "repeater"
  | .roomServer => "room_server"
  | .sensor => "sensor"
  | .unknown => "unknown"

structure PublicNode where
  id : String
  label : String
  role : NodeRole
  isObserver : Bool
  latitude : F64
  longitude : F64
  lastSeen : F64
  activityCount : F64
  deriving DecidableEq

structure PublicRouteEndpoint where
  nodeId : String
  lat : F64
  lng : F64
  deriving DecidableEq

structure PublicRoute where
  id : String
  source : PublicRouteEndpoint
  target : PublicRouteEndpoint
  distanceKm : F64
  lastHeard : F64
  frequencyBucket : F64
  deriving DecidableEq

structure PublicRouteSegment where
  routeId : String
  source : PublicRouteEndpoint
  target : PublicRouteEndpoint
  distanceKm : F64
  deriving DecidableEq

structure PublicPropagationEvent where
  id : String
  eventAt : F64
  classification : String
  confidence : String
  score : F64
  distanceKm : F64
  segments : List PublicRouteSegment
  deriving DecidableEq

structure NodeFocus where
  selectedNodeID : Option String
  neighbourNodeIDs : List String
  connectedRouteIDs : List String
  neighbourDistanceKmByNodeID : String → Option F64
  pathNodeIDs : List String
  pathRouteIDs : List String

structure NodeActivity where
  hits : List F64
  lastAt : F64
  deriving DecidableEq

inductive RouteThemeMode
  | dark
  | light
  deriving DecidableEq

/-! ## Features -/

structure NodeProperties where
  id : String
  label : String
  mapLabel : String
  role : NodeRole
  color : String
  selected : Bool
  neighbor : Bool
  path : Bool
  focused : Bool
  dimmed : Bool
  neighborDistanceKm : Option F64
  observer : Bool
  staleLevel : Nat
  freshLevel : Nat
  deriving DecidableEq

structure RouteProperties where
  id : String
  color : String
  selected : Bool
  path : Bool
  connected : Bool
  dimmed : Bool
  freshnessLevel : Nat
  freshnessOpacity : F64
  routeWidth : F64
  routeOpacity : F64
  deriving DecidableEq

structure HeatProperties where
  id : String
  label : String
  intensity : F64
  spark : F64
  color : String
  deriving DecidableEq

structure PropagationProperties where
  id : String
  routeId : String
  classification : String
  confidence : String
  score : F64
  distanceKm : F64
  color : String
  label : String
  deriving DecidableEq

inductive Properties
  | node (properties : NodeProperties)
  | route (properties : RouteProperties)
  | heat (properties : HeatProperties)
  | propagation (properties : PropagationProperties)
  deriving DecidableEq

/-- A feature; its geometry is a point where there is one pair of coordinates. -/
structure MapFeature where
  id : String
  properties : Properties
  coordinates : List (F64 × F64)
  deriving DecidableEq

/-! ## Places -/

def isMappableLatLng (lat lng : F64) : Bool :=
  isFinite lat && isFinite lng && lat ≠ .fin 0 && lng ≠ .fin 0 &&
    F64.le (.fin (-85)) lat && lat.le (.fin 85) && F64.le (.fin (-180)) lng && lng.le (.fin 180)

def isMappableNode (node : PublicNode) : Bool := isMappableLatLng node.latitude node.longitude

def isMappableEndpoint (endpoint : PublicRouteEndpoint) : Bool :=
  isMappableLatLng endpoint.lat endpoint.lng

def clamp (value least most : F64) : F64 :=
  if isFinite value then max least (min most value) else least

/-- `routeArcSampleCount` within its default bounds. -/
def routeArcSampleCount (distanceKm : F64) : F64 :=
  let distance := if isFinite distanceKm then max (.fin 0) distanceKm else .fin 0
  let count := (F64.fin 8).add (times (numbers.sqrt distance) (.ofRat (8 / 5)))
  round (clamp count (.fin 8) (.fin 34))

def interpolate (a b progress : F64) : F64 := a.add (times (minus b a) progress)

/-- `routeArcCoordinates` of a route with a distance. -/
def routeArcCoordinates (source target : PublicRouteEndpoint) (distanceKm : F64) :
    List (F64 × F64) :=
  let count := routeArcSampleCount numbers distanceKm
  let samples := match count with
    | .fin n => ⌈n⌉.toNat
    | _ => 0
  (List.range samples).map fun index =>
    let progress := if count.le (.fin 1) then .fin 1
      else dividedBy (.fin index) (minus count (.fin 1))
    (interpolate source.lng target.lng progress, interpolate source.lat target.lat progress)

/-! ## Nodes -/

/-- `slice` of a text counts UTF-16 code units; a pair that is cut leaves half of it, which is
left out. -/
def codeUnits (c : Char) : Nat := if c.toNat < 0x10000 then 1 else 2

def sliceText : Nat → List Char → List Char
  | _, [] => []
  | units, c :: text =>
    if codeUnits c ≤ units then c :: sliceText (units - codeUnits c) text else []

/-- `compactNodeLabel` with its default length. -/
def compactNodeLabel (label : String) : String :=
  let trimmed := trim label
  if (trimmed.toList.map codeUnits).sum ≤ 18 then trimmed
  else String.ofList (sliceText 15 trimmed.toList) ++ "..."

def nodeRoleColor : NodeRole → String
  | .repeater => "#22c55e"
  | .companion => "#3b82f6"
  | .roomServer => "#a855f7"
  | .sensor => "#65a30d"
  | .unknown => "#64748b"

/-- `nodeEffectiveActivityAt`. -/
def nodeEffectiveActivityAt (node : PublicNode) (meshActivityAt : Option F64) : F64 :=
  match meshActivityAt with
  | some time => if isFinite time then time else node.lastSeen
  | none => node.lastSeen

/-- `nodeStaleLevel`. -/
def nodeStaleLevel (node : PublicNode) (now : F64) (meshActivityAt : Option F64) : Nat :=
  let activityAt := nodeEffectiveActivityAt node meshActivityAt
  if !isFinite activityAt || activityAt.le (.fin 0) then 2
  else
    let ageMs := max (.fin 0) (minus now activityAt)
    if F64.le (.fin 3600000) ageMs then 2 else if F64.le (.fin 1800000) ageMs then 1 else 0

/-- `nodeFreshLevel`. -/
def nodeFreshLevel (node : PublicNode) (now : F64) (meshActivityAt : Option F64) : Nat :=
  let activityAt := nodeEffectiveActivityAt node meshActivityAt
  if !isFinite activityAt || activityAt.le (.fin 0) then 3
  else
    let ageMs := max (.fin 0) (minus now activityAt)
    if ageMs.lt (.fin 300000) then 0 else if ageMs.lt (.fin 1800000) then 1 else 2

/-- What `nodeFeatureProperties` and `nodeRenderIdentity` ask of the focus. -/
def focusActive (focus : NodeFocus) : Bool :=
  focus.selectedNodeID.getD "" ≠ "" || focus.pathNodeIDs ≠ []

/-- The entry of a node in a map by IDs. -/
def lookUp {α : Type} (entries : List (String × α)) (id : String) : Option α :=
  (Keyed.get Prod.fst id entries).map Prod.snd

def nodeFeatureProperties (node : PublicNode) (focus : NodeFocus) (labelClock : F64)
    (meshActivityAtByNodeID : List (String × F64)) : NodeProperties :=
  let meshActivityAt := lookUp meshActivityAtByNodeID node.id
  let selected := some node.id = focus.selectedNodeID
  let neighbor := node.id ∈ focus.neighbourNodeIDs
  let path := node.id ∈ focus.pathNodeIDs
  { id := node.id
    label := node.label
    mapLabel := compactNodeLabel node.label
    role := node.role
    color := nodeRoleColor node.role
    selected, neighbor, path
    focused := selected ∨ neighbor ∨ path
    dimmed := focusActive focus && !selected && !neighbor && !path
    neighborDistanceKm := focus.neighbourDistanceKmByNodeID node.id
    observer := node.isObserver
    staleLevel := nodeStaleLevel node labelClock meshActivityAt
    freshLevel := nodeFreshLevel node labelClock meshActivityAt }

/-- What `updateNodeRendering` reads. -/
structure NodeInput where
  nodes : List PublicNode
  focus : NodeFocus
  labelClock : F64
  meshActivityAtByNodeID : List (String × F64)

def nodeFeature (input : NodeInput) (node : PublicNode) : MapFeature where
  id := node.id
  properties := .node
    (nodeFeatureProperties node input.focus input.labelClock input.meshActivityAtByNodeID)
  coordinates := [(node.longitude, node.latitude)]

def nodesToGeoJSON (input : NodeInput) : FeatureCollection MapFeature where
  features := (input.nodes.filter isMappableNode).map (nodeFeature input)

def stableSetSignature (values : List String) : String := ",".intercalate (sortedTexts values)

def roundCoord (value : F64) : String := if isFinite value then fixed numbers value 5 else ""

/-- `flag ? 1 : 0`. -/
def flagText (flag : Bool) : String := if flag then "1" else "0"

/-- The parts of the identity of a node behind its label. -/
def nodeRenderMarks (node : PublicNode) (focus : NodeFocus) (now : F64)
    (meshActivityAtByNodeID : List (String × F64)) : List String :=
  let meshActivityAt := lookUp meshActivityAtByNodeID node.id
  let selected := some node.id = focus.selectedNodeID
  let neighbor := node.id ∈ focus.neighbourNodeIDs
  let path := node.id ∈ focus.pathNodeIDs
  [node.role.text, flagText node.isObserver, roundCoord numbers node.latitude,
    roundCoord numbers node.longitude, flagText selected, flagText neighbor, flagText path,
    flagText (focusActive focus && !selected && !neighbor && !path),
    toString (nodeStaleLevel node now meshActivityAt),
    toString (nodeFreshLevel node now meshActivityAt)]

def nodeRenderIdentity (node : PublicNode) (focus : NodeFocus) (now : F64)
    (meshActivityAtByNodeID : List (String × F64)) : String :=
  ":".intercalate
    (node.id :: node.label :: nodeRenderMarks numbers node focus now meshActivityAtByNodeID)

def nodeSourceSignature (input : NodeInput) : String :=
  "~".intercalate
    [input.focus.selectedNodeID.getD "", stableSetSignature input.focus.neighbourNodeIDs,
      stableSetSignature input.focus.pathNodeIDs, stableSetSignature input.focus.pathRouteIDs,
      "|".intercalate (sortedTexts ((input.nodes.filter isMappableNode).map fun node =>
        nodeRenderIdentity numbers node input.focus input.labelClock
          input.meshActivityAtByNodeID))]

/-! ## Routes -/

def routeColors : List String := ["#2563eb", "#06b6d4", "#2dd4bf", "#facc15", "#fb7185"]

def lightRouteColors : List String := ["#1d4ed8", "#0f766e", "#047857", "#b45309", "#be123c"]

/-- `Math.max(0, Math.min(4, bucket))`. -/
def boundedBucket (bucket : F64) : F64 := max (.fin 0) (min (.fin 4) bucket)

/-- `routeColorForBucket`; a place that is no index has no colour. -/
def routeColorForBucket (bucket : F64) (themeMode : RouteThemeMode) : String :=
  let colors := if themeMode = .light then lightRouteColors else routeColors
  match boundedBucket bucket with
  | .fin place => if place = ⌊place⌋ then colors.getD ⌊place⌋.toNat "" else ""
  | _ => ""

inductive HighlightKind
  | selected
  | path
  | connected

def routeHighlightColor : HighlightKind → RouteThemeMode → String
  | .selected, .light => "#0f172a"
  | .path, .light => "#9a3412"
  | .connected, .light => "#0369a1"
  | .selected, .dark => "#f8fafc"
  | .path, .dark => "#facc15"
  | .connected, .dark => "#67e8f9"

def routeDisplayColor (route : PublicRoute) (selected path connected : Bool)
    (themeMode : RouteThemeMode) : String :=
  if selected then routeHighlightColor .selected themeMode
  else if path then routeHighlightColor .path themeMode
  else if connected then routeHighlightColor .connected themeMode
  else routeColorForBucket route.frequencyBucket themeMode

def routeFreshnessLevel (lastHeard now : F64) : Nat :=
  if lastHeard.le (.fin 0) then 3
  else
    let age := max (.fin 0) (minus now lastHeard)
    if age.le (.fin 900000) then 0
    else if age.le (.fin 3600000) then 1
    else if age.le (.fin 21600000) then 2
    else 3

/-- `routeFreshnessOpacity` of a level. -/
def freshnessOpacityOf : Nat → F64
  | 0 => .fin 1
  | 1 => .ofRat (78 / 100)
  | 2 => .ofRat (54 / 100)
  | _ => .ofRat (34 / 100)

/-- `roundVisual`. -/
def roundVisual (value : F64) : F64 := dividedBy (round (times value (.fin 100))) (.fin 100)

/-- The `freshnessScale` of a level. -/
def freshnessScaleOf : Nat → F64
  | 0 => .ofRat (172 / 100)
  | 1 => .ofRat (126 / 100)
  | 2 => .ofRat (82 / 100)
  | _ => .fin (1 / 2)

/-- `routeActivityWidth` of a bucket and a level. -/
def routeActivityWidth (frequencyBucket : F64) (freshness : Nat) : F64 :=
  let bucketWidth := (F64.ofRat (155 / 100)).add
    (times (boundedBucket frequencyBucket) (.ofRat (62 / 100)))
  roundVisual (times bucketWidth (freshnessScaleOf freshness))

/-- `routeActivityOpacity` of a bucket and a level. -/
def routeActivityOpacity (frequencyBucket : F64) (freshness : Nat) : F64 :=
  let base := (F64.ofRat (28 / 100)).add
    (times (boundedBucket frequencyBucket) (.ofRat (12 / 100)))
  roundVisual (min (.ofRat (82 / 100)) (times base (freshnessOpacityOf freshness)))

/-- What the routes' source is made of. -/
structure RouteInput where
  routes : List PublicRoute
  selectedRouteID : Option String
  focus : NodeFocus
  now : F64
  themeMode : RouteThemeMode

def hasFocusedRoute (input : RouteInput) : Bool :=
  input.selectedRouteID.getD "" ≠ "" || input.focus.selectedNodeID.getD "" ≠ "" ||
    input.focus.pathRouteIDs ≠ []

def routeFeature (input : RouteInput) (route : PublicRoute) : MapFeature :=
  let selected := some route.id = input.selectedRouteID
  let connected := route.id ∈ input.focus.connectedRouteIDs
  let path := route.id ∈ input.focus.pathRouteIDs
  let freshness := routeFreshnessLevel route.lastHeard input.now
  { id := route.id
    properties := .route
      { id := route.id
        color := routeDisplayColor route selected path connected input.themeMode
        selected, path, connected
        dimmed := hasFocusedRoute input && !selected && !path && !connected
        freshnessLevel := freshness
        freshnessOpacity := freshnessOpacityOf freshness
        routeWidth := routeActivityWidth route.frequencyBucket freshness
        routeOpacity := routeActivityOpacity route.frequencyBucket freshness }
    coordinates := routeArcCoordinates numbers route.source route.target route.distanceKm }

def routesToGeoJSON (input : RouteInput) : FeatureCollection MapFeature where
  features := (input.routes.filter fun route =>
    isMappableEndpoint route.source && isMappableEndpoint route.target).map
      (routeFeature numbers input)

def routeRenderIdentity (route : PublicRoute) (now : F64) : String :=
  ":".intercalate
    [route.id, numbers.text route.frequencyBucket,
      toString (routeFreshnessLevel route.lastHeard now), route.source.nodeId,
      numbers.text route.source.lat, numbers.text route.source.lng, route.target.nodeId,
      numbers.text route.target.lat, numbers.text route.target.lng]

def routeSourceSignature (input : RouteInput) : String :=
  "~".intercalate
    [input.selectedRouteID.getD "", input.focus.selectedNodeID.getD "",
      stableSetSignature input.focus.connectedRouteIDs,
      stableSetSignature input.focus.pathRouteIDs,
      "|".intercalate (sortedTexts (input.routes.map fun route =>
        routeRenderIdentity numbers route input.now))]

def RouteThemeMode.text : RouteThemeMode → String
  | .dark => "dark"
  | .light => "light"

/-! ## The heat map -/

/-- `nodeActivityHeat`. -/
def nodeActivityHeat (hitCount : Nat) : F64 :=
  if hitCount = 0 then .fin 0
  else min (.fin 1) (dividedBy (numbers.log1p (.fin hitCount)) (numbers.log1p (.fin 30)))

/-- `nodeActivityGlow`. -/
def nodeActivityGlow (ageMs : F64) : F64 :=
  if ageMs.lt (.fin 0) then .fin 1
  else
    let progress := max (.fin 0) (min (.fin 1) (dividedBy ageMs (.fin 6500)))
    numbers.pow (minus (.fin 1) progress) (.ofRat (72 / 100))

def clamp01 (value : F64) : F64 :=
  if isFinite value then max (.fin 0) (min (.fin 1) value) else .fin 0

/-- What `activityHeatmapToGeoJSON` reads. -/
structure HeatInput where
  nodes : List PublicNode
  activities : List (String × NodeActivity)
  meshActivityAtByNodeID : List (String × F64)
  epochNow : F64
  performanceNow : F64
  deriving DecidableEq

def recentHits (activity : Option NodeActivity) (performanceNow : F64) : List F64 :=
  ((activity.map (·.hits)).getD []).filter fun hitAt => (minus performanceNow hitAt).le (.fin 60000)

def hitSpark (activity : Option NodeActivity) (performanceNow : F64) : F64 :=
  match activity with
  | some activity => nodeActivityGlow numbers (minus performanceNow activity.lastAt)
  | none => .fin 0

/-- The `ageMs` of the last activity of a node. -/
def activityAgeMs (node : PublicNode) (meshActivityAt : Option F64) (epochNow : F64) : F64 :=
  let activityAt := nodeEffectiveActivityAt node meshActivityAt
  if isFinite activityAt && F64.lt (.fin 0) activityAt
  then max (.fin 0) (minus epochNow activityAt) else .inf false

def recency (ageMs : F64) : F64 :=
  if ageMs.le (.fin 900000)
  then numbers.pow (minus (.fin 1) (dividedBy ageMs (.fin 900000))) (.ofRat (72 / 100)) else .fin 0

/-- `activityHeatIntensity`: the intensity and the spark. -/
def activityHeatIntensity (node : PublicNode) (activity : Option NodeActivity)
    (meshActivityAt : Option F64) (epochNow performanceNow : F64) : F64 × F64 :=
  let recentHits := recentHits activity performanceNow
  let hitHeat := nodeActivityHeat numbers recentHits.length
  let hitSpark := hitSpark numbers activity performanceNow
  let ageMs := activityAgeMs node meshActivityAt epochNow
  let recency := recency numbers ageMs
  let lifetimeWeight := min (.fin 1)
    (dividedBy (numbers.log1p (max (.fin 0) node.activityCount)) (numbers.log1p (.fin 1200)))
  let recencyHeat := times recency
    ((F64.ofRat (12 / 100)).add (times lifetimeWeight (.ofRat (42 / 100))))
  let burstHeat := times hitHeat ((F64.ofRat (35 / 100)).add
    (times (min (.fin 1) (dividedBy (.fin recentHits.length) (.fin 30))) (.ofRat (35 / 100))))
  (clamp01 (max recencyHeat burstHeat), clamp01 (max hitSpark (times hitHeat (.ofRat (45 / 100)))))

/-- Whether `activeHeatmapNodes` keeps a node. -/
def isActiveHeatmapNode (input : HeatInput) (node : PublicNode) : Bool :=
  let seenLately := (minus input.epochNow node.lastSeen).le (.fin 900000)
  if input.activities = [] ∧ input.meshActivityAtByNodeID = [] then seenLately
  else
    input.activities.any (fun entry =>
        entry.1 = node.id && (entry.2.hits ≠ [] || F64.lt (.fin 0) entry.2.lastAt)) ||
      input.meshActivityAtByNodeID.any (fun entry =>
        entry.1 = node.id && isFinite entry.2 &&
          (minus input.epochNow entry.2).le (.fin 900000)) ||
      seenLately

def activityHeatColor (role : NodeRole) (observer : Bool) : String :=
  if observer then "#f59e0b"
  else match role with
    | .companion => "#60a5fa"
    | .roomServer => "#a78bfa"
    | .sensor => "#a3e635"
    | _ => "#34d399"

/-- `activityHeatIntensity` of a node of the input. -/
def nodeHeat (input : HeatInput) (node : PublicNode) : F64 × F64 :=
  activityHeatIntensity numbers node (lookUp input.activities node.id)
    (lookUp input.meshActivityAtByNodeID node.id) input.epochNow input.performanceNow

/-- `activityHeatFeature`. -/
def activityHeatFeature (input : HeatInput) (node : PublicNode) : Option (F64 × MapFeature) :=
  let heat := nodeHeat numbers input node
  if heat.1.le (.ofRat (35 / 1000)) then none
  else
    some (heat.1,
      { id := node.id
        properties := .heat
          { id := node.id
            label := node.label
            intensity := heat.1
            spark := heat.2
            color := activityHeatColor node.role node.isObserver }
        coordinates := [(node.longitude, node.latitude)] })

/-- `activityHeatmapToGeoJSON` with its default number of features; the sort is stable. -/
def activityHeatmapToGeoJSON (input : HeatInput) : FeatureCollection MapFeature where
  features :=
    ((((input.nodes.filter (isActiveHeatmapNode input)).filter isMappableNode).filterMap
      (activityHeatFeature numbers input)).insertionSort
        fun a b => a.1.lt b.1 = false).map Prod.snd |>.take 420

/-- `activityHeatmapSignature`. -/
def activityHeatmapSignature (activities : List (String × NodeActivity))
    (meshActivityAtByNodeID : List (String × F64)) : String :=
  let hitCount := (activities.map fun entry => entry.2.hits.length).sum
  let latestActivityAt := activities.foldl (fun latest entry => max latest entry.2.lastAt) (.fin 0)
  let latestMeshActivityAt :=
    meshActivityAtByNodeID.foldl (fun latest entry => max latest entry.2) (.fin 0)
  ":".intercalate
    [toString activities.length, toString hitCount, numbers.text (round latestActivityAt),
      toString meshActivityAtByNodeID.length, numbers.text (round latestMeshActivityAt)]

/-! ## Propagation events -/

def propagationEventColor (event : PublicPropagationEvent) : String :=
  if event.classification = "tropo_possible" then "#34d399"
  else if event.confidence = "medium" then "#fbbf24"
  else "#fb7185"

def formatDistanceKm (value : F64) : String :=
  if !isFinite value || value.le (.fin 0) then "" else numbers.localeText (round value) ++ " km"

def propagationEventLabel (event : PublicPropagationEvent) : String :=
  let label := if event.classification = "tropo_possible" then "Tropo possible"
    else "Long-distance event"
  let distance := formatDistanceKm numbers event.distanceKm
  if distance = "" then label else label ++ " " ++ distance

def longestPropagationSegmentIndex (event : PublicPropagationEvent) : Nat :=
  (event.segments.zipIdx.foldl (fun (longest : Nat × F64) entry =>
    if longest.2.lt entry.1.distanceKm then (entry.2, entry.1.distanceKm) else longest)
    (0, .fin (-1))).1

def propagationEventsToGeoJSON (events : List PublicPropagationEvent) :
    FeatureCollection MapFeature where
  features := events.flatMap fun event =>
    event.segments.mapIdx fun index segment =>
      { id := event.id ++ ":" ++ toString index
        properties := .propagation
          { id := event.id
            routeId := segment.routeId
            classification := event.classification
            confidence := event.confidence
            score := event.score
            distanceKm := event.distanceKm
            color := propagationEventColor event
            label := if index = longestPropagationSegmentIndex event
              then propagationEventLabel numbers event else "" }
        coordinates := [(segment.source.lng, segment.source.lat),
          (segment.target.lng, segment.target.lat)] }

def propagationEventsSignature (events : List PublicPropagationEvent) : String :=
  "|".intercalate (events.map fun event => ":".intercalate
    [event.id, numbers.text event.eventAt, event.classification, fixed numbers event.score 2,
      toString event.segments.length])

end CartoLive.Web.MapSources
