import CartoLive.Lib.RunSort
import CartoLive.Lib.Segments
import CartoLive.Web.RouteTools

/-!
# The routes of a selected area

A route is selected when its segment meets the selected rectangle, if the tests of its sides
are clear: no orientation is so small that it counts as none, and the rectangle is not on the
route's line. Where an end of the route is in the rectangle, or the route is on one side of it,
no side is tested.

## Main results

* `routesInBounds_selects`: the selected routes are those that touch the rectangle, most
  packets first and then last heard first.
* `routesInBounds_misses_crossing`: a route that crosses a very small rectangle is not selected.
-/

namespace CartoLive.Theorems.AreaSelection

open CartoLive.Lib.Comparators (pairwise_insertionSort_of_cases)
open CartoLive.Lib.Segments
open CartoLive.Web.RouteTools
open CartoLive.Web.Connectivity (Platform firstNonzero)

/-! ## The rectangle and its routes -/

def toPoint (point : MapPoint) : Point ℚ := ⟨point.lng, point.lat⟩

/-- The closed rectangle with two given corners. -/
def rectangle (a b : MapPoint) : Box ℚ where
  west := min a.lng b.lng
  east := max a.lng b.lng
  south := min a.lat b.lat
  north := max a.lat b.lat
  west_le_east := min_le_max
  south_le_north := min_le_max

/-- The closed segment between a route's ends meets the closed rectangle. -/
def Touches (route : PublicRoute) (a b : MapPoint) : Prop :=
  (rectangle a b).Meets (toPoint route.source) (toPoint route.target)

/-- More packets, or as many and heard no earlier. -/
def BusierFirst (left right : PublicRoute) : Prop :=
  right.packetCount < left.packetCount ∨
    right.packetCount = left.packetCount ∧ right.lastHeard ≤ left.lastHeard

/-- The values that the test of a side compares. -/
def testedValues (route : PublicRoute) (side : MapPoint × MapPoint) : List ℚ :=
  [orientationValue route.source route.target side.1,
    orientationValue route.source route.target side.2,
    orientationValue side.1 side.2 route.source, orientationValue side.1 side.2 route.target]

/-- The route is on one side of the rectangle. -/
def Apart (route : PublicRoute) (bounds : RouteBounds) : Prop :=
  max route.source.lat route.target.lat < bounds.south ∨
    min route.source.lat route.target.lat > bounds.north ∨
    max route.source.lng route.target.lng < bounds.west ∨
    min route.source.lng route.target.lng > bounds.east

/-- No compared value is within the tolerance unless it is zero, and a corner is off the route's
line. -/
def SidesClear (route : PublicRoute) (bounds : RouteBounds) : Prop :=
  (∀ side ∈ sides bounds, ∀ value ∈ testedValues route side,
    value = 0 ∨ orientationTolerance ≤ |value|) ∧
  ∃ corner ∈ corners bounds, orientationValue route.source route.target corner ≠ 0

/-- What the selection of a route takes: its ends or its place decide, or the sides are clear. -/
def Clear (route : PublicRoute) (bounds : RouteBounds) : Prop :=
  pointInBounds route.source bounds = true ∨ pointInBounds route.target bounds = true ∨
    Apart route bounds ∨ SidesClear route bounds

instance (route : PublicRoute) (bounds : RouteBounds) : Decidable (Clear route bounds) := by
  unfold Clear Apart SidesClear
  infer_instance

/-! ## One test of a side -/

theorem cross_toPoint (a b c : MapPoint) :
    cross (toPoint a) (toPoint b) (toPoint c) = orientationValue a b c := rfl

theorem orientation_eq_iff {a b c a' b' c' : MapPoint}
    (h : orientationValue a b c = 0 ∨ orientationTolerance ≤ |orientationValue a b c|)
    (h' : orientationValue a' b' c' = 0 ∨ orientationTolerance ≤ |orientationValue a' b' c'|) :
    orientation a b c = orientation a' b' c' ↔
      SignType.sign (orientationValue a b c) = SignType.sign (orientationValue a' b' c') := by
  have hcode : ∀ value : ℚ, value = 0 ∨ orientationTolerance ≤ |value| →
      (if |value| < orientationTolerance then 0 else if value > 0 then 1 else 2 : ℕ) =
        match SignType.sign value with
        | .zero => 0
        | .pos => 1
        | .neg => 2 := by
    intro value hvalue
    have htolerance : (0 : ℚ) < orientationTolerance := by decide +kernel
    rcases lt_trichotomy value 0 with hneg | rfl | hpos
    · have hbig := hvalue.resolve_left (ne_of_lt hneg)
      rw [if_neg (not_lt.mpr hbig), if_neg (not_lt.mpr (le_of_lt hneg)), sign_neg hneg]
    · rw [abs_zero, if_pos htolerance, sign_zero]
    · have hbig := hvalue.resolve_left (ne_of_gt hpos)
      rw [if_neg (not_lt.mpr hbig), if_pos hpos, sign_pos hpos]
  unfold orientation
  rw [hcode _ h, hcode _ h']
  cases SignType.sign (orientationValue a b c) <;>
    cases SignType.sign (orientationValue a' b' c') <;> simp

/-- A side whose values are clear is found just when it is met and not parallel to the route. -/
theorem segmentsIntersect_iff {route : PublicRoute} {side : MapPoint × MapPoint}
    (h : ∀ value ∈ testedValues route side, value = 0 ∨ orientationTolerance ≤ |value|) :
    segmentsIntersect route.source route.target side.1 side.2 = true ↔
      cross (toPoint route.source) (toPoint route.target) (toPoint side.2) -
          cross (toPoint route.source) (toPoint route.target) (toPoint side.1) ≠ 0 ∧
        Meet (toPoint route.source) (toPoint route.target) (toPoint side.1) (toPoint side.2) := by
  simp only [testedValues, List.forall_mem_cons, List.not_mem_nil, false_implies,
    implies_true, and_true] at h
  obtain ⟨h1, h2, h3, h4⟩ := h
  rw [← separated_iff]
  simp only [segmentsIntersect, Bool.and_eq_true, bne_iff_ne, ne_eq, cross_toPoint,
    orientation_eq_iff h1 h2, orientation_eq_iff h3 h4]

/-! ## The rectangle of the bounds -/

variable {a b : MapPoint}

theorem pointInBounds_iff (point : MapPoint) :
    pointInBounds point (boundsFromPoints a b) = true ↔ (rectangle a b).Has (toPoint point) := by
  simp only [pointInBounds, Bool.and_eq_true, decide_eq_true_eq, ge_iff_le]
  simp only [boundsFromPoints, Box.Has, rectangle, toPoint]
  tauto

theorem corners_rectangle :
    (rectangle a b).corners = (corners (boundsFromPoints a b)).map toPoint := rfl

theorem sides_rectangle :
    (rectangle a b).sides =
      (sides (boundsFromPoints a b)).map fun side => (toPoint side.1, toPoint side.2) := rfl

/-- Both rejections are of routes on one side of the rectangle. -/
theorem routeIntersectsBounds_of_outside {route : PublicRoute} {bounds : RouteBounds}
    (hs : ¬ pointInBounds route.source bounds = true)
    (ht : ¬ pointInBounds route.target bounds = true) :
    routeIntersectsBounds route bounds = true ↔
      ¬ Apart route bounds ∧ ∃ side ∈ sides bounds,
        segmentsIntersect route.source route.target side.1 side.2 = true := by
  unfold routeIntersectsBounds
  dsimp only
  rw [if_neg (by simp [hs, ht])]
  by_cases hlat : max route.source.lat route.target.lat < bounds.south ∨
      min route.source.lat route.target.lat > bounds.north
  · rw [if_pos hlat]
    have hapart : Apart route bounds := by
      unfold Apart
      tauto
    simp [hapart]
  rw [if_neg hlat]
  by_cases hlng : max route.source.lng route.target.lng < bounds.west ∨
      min route.source.lng route.target.lng > bounds.east
  · rw [if_pos hlng]
    have hapart : Apart route bounds := by
      unfold Apart
      tauto
    simp [hapart]
  · have hapart : ¬ Apart route bounds := by
      unfold Apart
      tauto
    simp only [if_neg hlng, List.any_eq_true, hapart, not_false_eq_true, true_and]

theorem not_touches_of_apart {route : PublicRoute} (h : Apart route (boundsFromPoints a b)) :
    ¬ Touches route a b := by
  refine Box.not_meets_of_apart ?_
  simp only [Apart, boundsFromPoints, gt_iff_lt] at h
  simp only [toPoint, rectangle]
  tauto

theorem routeIntersectsBounds_iff {route : PublicRoute}
    (h : Clear route (boundsFromPoints a b)) :
    routeIntersectsBounds route (boundsFromPoints a b) = true ↔ Touches route a b := by
  by_cases hin : pointInBounds route.source (boundsFromPoints a b) = true ∨
      pointInBounds route.target (boundsFromPoints a b) = true
  · have htouches : Touches route a b := by
      rw [pointInBounds_iff, pointInBounds_iff] at hin
      exact Box.meets_of_has hin
    simp [routeIntersectsBounds, htouches, hin]
  obtain ⟨hs, ht⟩ := not_or.mp hin
  rw [routeIntersectsBounds_of_outside hs ht]
  by_cases hapart : Apart route (boundsFromPoints a b)
  · simp [hapart, not_touches_of_apart hapart]
  obtain ⟨hvalues, corner, hcorner, hne⟩ : SidesClear route (boundsFromPoints a b) := by
    unfold Clear at h
    tauto
  have hcorners : ∃ p ∈ (rectangle a b).corners,
      cross (toPoint route.source) (toPoint route.target) p ≠ 0 := by
    rw [corners_rectangle]
    exact ⟨toPoint corner, List.mem_map_of_mem hcorner, hne⟩
  rw [pointInBounds_iff] at hs
  rw [Touches, Box.meets_iff hs hcorners, sides_rectangle]
  simp only [hapart, not_false_eq_true, true_and, List.mem_map, exists_exists_and_eq_and]
  exact exists_congr fun side => and_congr_right fun hside =>
    segmentsIntersect_iff (hvalues side hside)

/-- The place of a route without length decides. -/
theorem clear_of_point {route : PublicRoute} (h : route.source = route.target) :
    Clear route (boundsFromPoints a b) := by
  by_cases hin : pointInBounds route.source (boundsFromPoints a b) = true
  · exact Or.inl hin
  · refine Or.inr (Or.inr (Or.inl ?_))
    simp only [pointInBounds, Bool.and_eq_true, decide_eq_true_eq, ge_iff_le] at hin
    simp only [Apart, ← h, max_self, min_self, gt_iff_lt, ← not_le]
    tauto

/-! ## The order -/

theorem busierFirst_trans (x y z : PublicRoute) (h : BusierFirst x y) (h' : BusierFirst y z) :
    BusierFirst x z := by
  unfold BusierFirst at *
  grind

theorem busierFirst_of_compare (platform : Platform) {left right : PublicRoute}
    (h : compareSelected platform left right ≤ 0) : BusierFirst left right := by
  simp only [compareSelected, firstNonzero] at h
  unfold BusierFirst
  grind

theorem busierFirst_of_not_compare (platform : Platform) {left right : PublicRoute}
    (h : ¬ compareSelected platform left right ≤ 0) : BusierFirst right left := by
  simp only [compareSelected, firstNonzero] at h
  unfold BusierFirst
  grind

/-! ## The selection -/

theorem routesInBounds_selects (platform : Platform) (routes : List PublicRoute)
    (a b : MapPoint) :
    (∀ route, Clear route (boundsFromPoints a b) →
      (route ∈ routesInBounds platform routes (boundsFromPoints a b) ↔
        route ∈ routes ∧ Touches route a b)) ∧
    (∀ route : PublicRoute, route.source = route.target → Clear route (boundsFromPoints a b)) ∧
    (routesInBounds platform routes (boundsFromPoints a b)).Pairwise BusierFirst := by
  refine ⟨?_, fun route h => clear_of_point h, ?_⟩
  · intro route hclear
    rw [routesInBounds, (List.perm_insertionSort _ _).mem_iff, List.mem_filter,
      routeIntersectsBounds_iff hclear]
  · exact pairwise_insertionSort_of_cases (fun _ _ => busierFirst_of_compare platform)
      (fun _ _ => busierFirst_of_not_compare platform) busierFirst_trans _

theorem compare_self (text : String) :
    (if text < text then -1 else if text < text then 1 else 0 : ℚ) = 0 := by simp

/-- A comparison of texts by their characters. -/
def byCharacters : Platform where
  localeCompare a b := if a < b then -1 else if b < a then 1 else 0
  localeCompare_self := compare_self
  toUpperCase text := text

/-- A route along the south side of the rectangle, past both of its corners. -/
def alongSide : PublicRoute where
  id := "along"
  source := ⟨43, -80⟩
  target := ⟨43, -78⟩
  packetCount := 1
  lastHeard := 1

theorem routesInBounds_selects_alongSide :
    (alongSide ∈ routesInBounds byCharacters [alongSide]
        (boundsFromPoints ⟨43, -79⟩ ⟨44, -787 / 10⟩) ↔
      alongSide ∈ [alongSide] ∧ Touches alongSide ⟨43, -79⟩ ⟨44, -787 / 10⟩) ∧
    Clear { alongSide with target := alongSide.source }
      (boundsFromPoints ⟨43, -79⟩ ⟨44, -787 / 10⟩) :=
  ⟨(routesInBounds_selects byCharacters [alongSide] ⟨43, -79⟩ ⟨44, -787 / 10⟩).1 alongSide
      (by decide +kernel),
    (routesInBounds_selects byCharacters [alongSide] ⟨43, -79⟩ ⟨44, -787 / 10⟩).2.1 _ rfl⟩

/-- A route through the middle of a rectangle whose sides are a millionth of a degree. -/
def acrossTiny : PublicRoute where
  id := "tiny"
  source := ⟨1 / 2000000, -1 / 1000000⟩
  target := ⟨1 / 2000000, 2 / 1000000⟩
  packetCount := 1
  lastHeard := 1

theorem routesInBounds_misses_crossing :
    ¬ ∀ (platform : Platform) (routes : List PublicRoute) (a b : MapPoint)
      (route : PublicRoute),
      route ∈ routesInBounds platform routes (boundsFromPoints a b) ↔
        route ∈ routes ∧ Touches route a b := by
  intro h
  have hmem := h byCharacters [acrossTiny] ⟨0, 0⟩ ⟨1 / 1000000, 1 / 1000000⟩ acrossTiny
  have hmissed : acrossTiny ∉ routesInBounds byCharacters [acrossTiny]
      (boundsFromPoints ⟨0, 0⟩ ⟨1 / 1000000, 1 / 1000000⟩) := by decide +kernel
  refine hmissed (hmem.mpr ⟨List.mem_singleton_self _, ⟨1 / 2000000, 1 / 2000000⟩,
    ⟨1 / 2, ?_⟩, ?_⟩)
  · exact ⟨by decide +kernel, by decide +kernel, by decide +kernel⟩
  · exact ⟨⟨by decide +kernel, by decide +kernel⟩, by decide +kernel, by decide +kernel⟩

end CartoLive.Theorems.AreaSelection
