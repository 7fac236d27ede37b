import CartoLive.Web.MapSources

/-!
# The calls that draw on the map

`updateNodeRendering`, `updateRouteRendering`, `setActivityHeatmapSource` and
`updatePropagationRendering` of one map, with the refs of their signatures and the transforms that
have not settled. A transform settles once, at any time, and whether it is answered, refused as
stale or failed, the data that are set are those of its own request. Beside the map goes a record
of what was queued last for each source, and of the calls of `setSourceData` that were skipped.
-/

namespace CartoLive.Web.MapSources

open CartoLive.Go CartoLive.Lib

/-- What a call offers to a source. -/
inductive Input
  | nodes (input : NodeInput)
  | routes (input : RouteInput)
  | heat (input : HeatInput)
  | propagation (events : List PublicPropagationEvent)

variable (numbers : Numbers)

namespace Input

/-- `NODE_SOURCE`, `ROUTE_SOURCE`, `ACTIVITY_HEATMAP_SOURCE` and `PROPAGATION_SOURCE`. -/
def sourceID : Input → String
  | .nodes _ => "public-nodes"
  | .routes _ => "public-routes"
  | .heat _ => "activity-heatmap"
  | .propagation _ => "propagation-events"

/-- The signature that is handed to `setSourceData`. -/
def signature : Input → String
  | .nodes input => nodeSourceSignature numbers input
  | .routes input =>
    "routes:" ++ input.themeMode.text ++ ":" ++ routeSourceSignature numbers input
  | .heat input =>
    "heatmap:" ++ activityHeatmapSignature numbers input.activities input.meshActivityAtByNodeID
  | .propagation events => "propagation:" ++ propagationEventsSignature numbers events

def geoJSON : Input → FeatureCollection MapFeature
  | .nodes input => nodesToGeoJSON input
  | .routes input => routesToGeoJSON numbers input
  | .heat input => activityHeatmapToGeoJSON numbers input
  | .propagation events => propagationEventsToGeoJSON numbers events

end Input

/-- The entry of `activityHeatmapRenderState`; a list of nodes is known by its reference. -/
structure HeatRender where
  lastRenderedAt : F64
  signature : String
  nodes : Nat

/-- A transform that has not settled. -/
inductive Transform
  | heat (input : HeatInput) (nodes : Nat)
  | routes (input : RouteInput)

/-- A map with what the calls remember of it. -/
structure Rendering where
  map : SourceMap MapFeature
  nodeSignature : String
  routeSignature : String
  propagationSignature : String
  heatRender : Option HeatRender
  transforms : List Transform
  /-- What was queued last for a source. -/
  queued : String → Option Input
  /-- What the skipped calls offered, with what was queued last for their source. -/
  skips : List (Input × Option Input)

namespace Rendering

variable (stringify : FeatureCollection MapFeature → List UInt16)

/-- A call of `setSourceData`, and its record. -/
def setSourceData (s : Rendering) (input : Input) : Rendering :=
  let set := s.map.setSourceData stringify input.sourceID (input.geoJSON numbers)
    (some (input.signature numbers))
  { s with
    map := set.1
    queued := if set.2 = .queued then Function.update s.queued input.sourceID (some input)
      else s.queued
    skips := if set.2 = .skipped then s.skips ++ [(input, s.queued input.sourceID)]
      else s.skips }

def updateNodeRendering (s : Rendering) (input : NodeInput) (force : Bool) : Rendering :=
  let nextSignature := nodeSourceSignature numbers input
  if !force && nextSignature = s.nodeSignature then s
  else { s with nodeSignature := nextSignature }.setSourceData numbers stringify (.nodes input)

def updatePropagationRendering (s : Rendering) (events : List PublicPropagationEvent)
    (force : Bool) : Rendering :=
  let signature := propagationEventsSignature numbers events
  if !force && signature = s.propagationSignature then s
  else
    { s with propagationSignature := signature }.setSourceData numbers stringify
      (.propagation events)

/-- `updateRouteRendering` as far as the source goes; the colours of the animator are apart. -/
def updateRouteRendering (s : Rendering) (input : RouteInput) (force : Bool) : Rendering :=
  let nextRouteSignature := routeSourceSignature numbers input
  if force || nextRouteSignature ≠ s.routeSignature then
    { s with
      routeSignature := nextRouteSignature
      transforms := s.transforms ++ [.routes input] }
  else s

/-- `setActivityHeatmapSource`; `visible` is what `activityHeatmapVisible` answers. -/
def setActivityHeatmapSource (s : Rendering) (input : HeatInput) (nodes : Nat)
    (visible force : Bool) : Rendering :=
  if s.map.sources "activity-heatmap" = none ∨ !visible then s
  else
    let now := input.performanceNow
    let signature :=
      activityHeatmapSignature numbers input.activities input.meshActivityAtByNodeID
    let waits := match s.heatRender with
      | none => false
      | some previous =>
        let elapsed := minus now previous.lastRenderedAt
        previous.nodes = nodes &&
          (elapsed.lt (.fin 1500) && previous.signature = signature || elapsed.lt (.fin 450))
    if !force && waits then s
    else
      { s with
        heatRender := some { lastRenderedAt := now, signature, nodes }
        transforms := s.transforms ++ [.heat input nodes] }

/-- Both ends of a transform: its data are set unless a later call has other ones. -/
def settle (s : Rendering) : Transform → Rendering
  | .heat input nodes =>
    match s.heatRender with
    | some latest =>
      if latest.signature =
            activityHeatmapSignature numbers input.activities input.meshActivityAtByNodeID ∧
          latest.nodes = nodes then
        s.setSourceData numbers stringify (.heat input)
      else s
    | none => s
  | .routes input =>
    if s.routeSignature = routeSourceSignature numbers input then
      s.setSourceData numbers stringify (.routes input)
    else s

/-- A map with some sources, before any call. -/
def new (sources : String → Option (FeatureCollection MapFeature)) : Rendering where
  map := .new sources
  nodeSignature := ""
  routeSignature := ""
  propagationSignature := ""
  heatRender := none
  transforms := []
  queued := fun _ => none
  skips := []

end Rendering

inductive RenderEvent
  | updateNodeRendering (input : NodeInput) (force : Bool)
  | updateRouteRendering (input : RouteInput) (force : Bool)
  | setActivityHeatmapSource (input : HeatInput) (nodes : Nat) (visible force : Bool)
  | updatePropagationRendering (events : List PublicPropagationEvent) (force : Bool)
  | settle (place : Nat)
  | resetSignatures
  | frame (handle : Nat)
  | addSource (sourceID : String) (data : FeatureCollection MapFeature)
  | dispose

variable (stringify : FeatureCollection MapFeature → List UInt16)

def Rendering.step (s : Rendering) : RenderEvent → Option Rendering
  | .updateNodeRendering input force =>
    some (s.updateNodeRendering numbers stringify input force)
  | .updateRouteRendering input force => some (s.updateRouteRendering numbers input force)
  | .setActivityHeatmapSource input nodes visible force =>
    some (s.setActivityHeatmapSource numbers input nodes visible force)
  | .updatePropagationRendering events force =>
    some (s.updatePropagationRendering numbers stringify events force)
  | .settle place =>
    s.transforms[place]?.map fun transform =>
      { s with transforms := s.transforms.eraseIdx place }.settle numbers stringify transform
  | .resetSignatures =>
    some { s with nodeSignature := "", routeSignature := "", propagationSignature := "" }
  | .frame handle => (s.map.step stringify (.frame handle)).map fun map => { s with map }
  | .addSource sourceID data =>
    (s.map.step stringify (.addSource sourceID data)).map fun map => { s with map }
  | .dispose => some { s with map := s.map.disposeSourceDataQueue }

/-- The system of the calls on one map. -/
def renderSystem : TSys Rendering RenderEvent where
  init s := ∃ sources, s = .new sources
  step := Rendering.step numbers stringify

end CartoLive.Web.MapSources
