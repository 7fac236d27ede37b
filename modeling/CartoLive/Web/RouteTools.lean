import CartoLive.Web.Connectivity

/-!
# Routes in a selected area

The selection of `routeTools.ts`: the bounds of two corner points, the test whether a route
touches them, and the order of the selected routes. Numbers are exact. A route's `from` and
`to` are its `source` and `target`.
-/

namespace CartoLive.Web.RouteTools

open CartoLive.Web.Connectivity (Platform firstNonzero)

structure MapPoint where
  lat : ℚ
  lng : ℚ
  deriving DecidableEq

structure RouteBounds where
  north : ℚ
  south : ℚ
  east : ℚ
  west : ℚ
  deriving DecidableEq

structure PublicRoute where
  id : String
  source : MapPoint
  target : MapPoint
  packetCount : ℚ
  lastHeard : ℚ
  deriving DecidableEq

def boundsFromPoints (a b : MapPoint) : RouteBounds where
  north := max a.lat b.lat
  south := min a.lat b.lat
  east := max a.lng b.lng
  west := min a.lng b.lng

def pointInBounds (point : MapPoint) (bounds : RouteBounds) : Bool :=
  point.lat ≥ bounds.south && point.lat ≤ bounds.north &&
    point.lng ≥ bounds.west && point.lng ≤ bounds.east

/-- The `value` of `orientation`. -/
def orientationValue (a b c : MapPoint) : ℚ :=
  (b.lng - a.lng) * (c.lat - a.lat) - (b.lat - a.lat) * (c.lng - a.lng)

def orientationTolerance : ℚ := 1 / 10 ^ 10

def orientation (a b c : MapPoint) : ℕ :=
  if |orientationValue a b c| < orientationTolerance then 0
  else if orientationValue a b c > 0 then 1
  else 2

def segmentsIntersect (a b c d : MapPoint) : Bool :=
  let o1 := orientation a b c
  let o2 := orientation a b d
  let o3 := orientation c d a
  let o4 := orientation c d b
  o1 != o2 && o3 != o4

def corners (bounds : RouteBounds) : List MapPoint :=
  [⟨bounds.south, bounds.west⟩, ⟨bounds.south, bounds.east⟩, ⟨bounds.north, bounds.east⟩,
    ⟨bounds.north, bounds.west⟩]

/-- Each corner and the next one, `corners[(index + 1) % corners.length]`. -/
def sides (bounds : RouteBounds) : List (MapPoint × MapPoint) :=
  (corners bounds).zip ((corners bounds).rotate 1)

def routeIntersectsBounds (route : PublicRoute) (bounds : RouteBounds) : Bool :=
  let a := route.source
  let b := route.target
  if pointInBounds a bounds || pointInBounds b bounds then true
  else if max a.lat b.lat < bounds.south ∨ min a.lat b.lat > bounds.north then false
  else if max a.lng b.lng < bounds.west ∨ min a.lng b.lng > bounds.east then false
  else (sides bounds).any fun side => segmentsIntersect a b side.1 side.2

variable (platform : Platform)

def compareSelected (left right : PublicRoute) : ℚ :=
  firstNonzero
    [right.packetCount - left.packetCount, right.lastHeard - left.lastHeard,
      platform.localeCompare left.id right.id]

def routesInBounds (routes : List PublicRoute) (bounds : RouteBounds) : List PublicRoute :=
  (routes.filter fun route => routeIntersectsBounds route bounds).insertionSort
    fun left right => compareSelected platform left right ≤ 0

end CartoLive.Web.RouteTools
