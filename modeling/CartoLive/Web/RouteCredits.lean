import CartoLive.Web.RouteState
import Mathlib.Data.List.Induction

/-!
# Routes one hit at a time

Apart from the buckets, a batch of pulses does to the routes what its hits do one after
another (`core_upsert`): each hit counts on the record of its route or makes one
(`creditHit`). How the hits were cut into batches does not show.
-/

namespace CartoLive.Web

open CartoLive.Live CartoLive.Lib

/-- A route without its bucket. -/
def core (route : PublicRoute) : PublicRoute := { route with frequencyBucket := 0 }

/-- A segment of a pulse. -/
abbrev PulseSegment := LiveRoutePulse × PublicRouteSegment

def pulseSegments (pulses : List LiveRoutePulse) : List PulseSegment :=
  pulses.flatMap fun pulse => pulse.segments.map fun segment => (pulse, segment)

/-- One more hit on the record of a route. -/
def creditRoute (hit : PulseSegment) (route : PublicRoute) : PublicRoute :=
  { route with
    packetCount := route.packetCount + 1
    lastHeard := max route.lastHeard hit.1.heardAt
    payloadTypeNames := sortedNames (route.payloadTypeNames ++ [hit.1.payloadTypeName]) }

/-- The record that a first hit makes. -/
def creditedRoute (hit : PulseSegment) : PublicRoute :=
  { id := hit.2.routeID
    source := hit.2.source
    target := hit.2.target
    distanceKM := hit.2.distanceKM
    packetCount := 1
    lastHeard := hit.1.heardAt
    frequencyBucket := 0
    payloadTypeNames := sortedNames [hit.1.payloadTypeName] }

def routeCounting : Counting PublicRoute String :=
  { key := PublicRoute.id, count := PublicRoute.packetCount }

def creditHit (routes : List PublicRoute) (hit : PulseSegment) : List PublicRoute :=
  routeCounting.bump hit.2.routeID (creditRoute hit) (creditedRoute hit) routes

/-! ## One more hit in a batch -/

theorem get_mergeTouched (maxBefore : Int) {routes : List PublicRoute}
    (routeID : String) (touched : List TouchedRoute) :
    Keyed.get PublicRoute.id routeID (mergeTouched maxBefore routes touched) =
      upsertedRoute maxBefore (Keyed.get PublicRoute.id routeID routes)
        (Keyed.get TouchedRoute.routeID routeID touched) := by
  have hnew : Keyed.get PublicRoute.id routeID
      ((newTouched routes touched).map (TouchedRoute.newRoute maxBefore)) =
        (Keyed.get TouchedRoute.routeID routeID (newTouched routes touched)).map
          (TouchedRoute.newRoute maxBefore) :=
    Keyed.get_map (fun _ => rfl) routeID _
  have hleft : Keyed.get TouchedRoute.routeID routeID (newTouched routes touched) =
      if routeID ∈ routes.map PublicRoute.id then none
      else Keyed.get TouchedRoute.routeID routeID touched := by
    unfold newTouched
    rw [Keyed.get_filter_key (fun id => decide (id ∉ routes.map PublicRoute.id))]
    by_cases hmem : routeID ∈ routes.map PublicRoute.id
    · rw [if_pos hmem, if_neg (by simpa using hmem)]
    · rw [if_neg hmem, if_pos (by simpa using hmem)]
  unfold mergeTouched
  rw [Keyed.get_append, Keyed.get_map (id_mergedRoute maxBefore touched), hnew, hleft]
  cases hroute : Keyed.get PublicRoute.id routeID routes with
  | none =>
    rw [if_neg (Keyed.get_eq_none_iff.mp hroute)]
    cases Keyed.get TouchedRoute.routeID routeID touched <;> rfl
  | some route =>
    rw [Option.map_some, Option.some_or, mergedRoute, Keyed.key_of_get hroute]
    cases Keyed.get TouchedRoute.routeID routeID touched <;> rfl

/-- What one more hit does to the record of its own route. -/
theorem core_upsertedRoute_hit (maxBefore : Int) (hit : PulseSegment) (route : Option PublicRoute)
    (update : Option TouchedRoute) :
    (upsertedRoute maxBefore route (some ((update.map (TouchedRoute.hit hit.1)).getD
      (firstTouch hit.1 hit.2)))).map core =
      some ((((upsertedRoute maxBefore route update).map core).map (creditRoute hit)).getD
        (creditedRoute hit)) := by
  have hnames : ∀ (a b : List String) (name : String),
      sortedNames (a ++ (b ++ [name])) = sortedNames (sortedNames (a ++ b) ++ [name]) := by
    intro a b name
    refine sortedNames_congr fun x => ?_
    simp [or_assoc]
  match route, update with
  | none, none => rfl
  | none, some update =>
    have hsame : sortedNames (update.payloadTypeNames ++ [hit.1.payloadTypeName]) =
        sortedNames (sortedNames update.payloadTypeNames ++ [hit.1.payloadTypeName]) := by
      simpa using hnames [] update.payloadTypeNames hit.1.payloadTypeName
    simp [upsertedRoute, core, TouchedRoute.newRoute, TouchedRoute.hit, creditRoute, hsame]
  | some route, none => rfl
  | some route, some update =>
    simp [upsertedRoute, core, TouchedRoute.addTo, TouchedRoute.hit, creditRoute, hnames,
      max_assoc, add_assoc]

theorem get_map_core (routeID : String) (routes : List PublicRoute) :
    Keyed.get PublicRoute.id routeID (routes.map core) =
      (Keyed.get PublicRoute.id routeID routes).map core := by
  have hid : ∀ route, (core route).id = route.id := fun _ => rfl
  exact Keyed.get_map hid routeID routes

theorem key_creditRoute (hit : PulseSegment) (route : PublicRoute)
    (h : routeCounting.key route = hit.2.routeID) :
    routeCounting.key (creditRoute hit route) = hit.2.routeID := h

theorem key_creditedRoute (hit : PulseSegment) :
    routeCounting.key (creditedRoute hit) = hit.2.routeID := rfl

theorem key_hit (hit : PulseSegment) (update : TouchedRoute)
    (h : touchedCounting.key update = hit.2.routeID) :
    touchedCounting.key (update.hit hit.1) = hit.2.routeID := h

theorem key_firstTouch (hit : PulseSegment) :
    touchedCounting.key (firstTouch hit.1 hit.2) = hit.2.routeID := rfl

theorem get_creditHit (routeID : String) (routes : List PublicRoute) (hit : PulseSegment) :
    Keyed.get PublicRoute.id routeID (creditHit routes hit) =
      if hit.2.routeID = routeID then
        some (((Keyed.get PublicRoute.id hit.2.routeID routes).map (creditRoute hit)).getD
          (creditedRoute hit))
      else Keyed.get PublicRoute.id routeID routes :=
  Counting.find_bump (key_creditRoute hit) (key_creditedRoute hit) routes routeID

theorem ids_creditHit (routes : List PublicRoute) (hit : PulseSegment) :
    (creditHit routes hit).map PublicRoute.id =
      if hit.2.routeID ∈ routes.map PublicRoute.id then routes.map PublicRoute.id
      else routes.map PublicRoute.id ++ [hit.2.routeID] :=
  Counting.keys_bump (key_creditRoute hit) (key_creditedRoute hit) routes

theorem get_touchRoute (routeID : String) (touched : List TouchedRoute) (hit : PulseSegment) :
    Keyed.get TouchedRoute.routeID routeID (touchRoute hit.1 touched hit.2) =
      if hit.2.routeID = routeID then
        some (((Keyed.get TouchedRoute.routeID hit.2.routeID touched).map
          (TouchedRoute.hit hit.1)).getD (firstTouch hit.1 hit.2))
      else Keyed.get TouchedRoute.routeID routeID touched :=
  Counting.find_bump (key_hit hit) (key_firstTouch hit) touched routeID

theorem ids_touchRoute (touched : List TouchedRoute) (hit : PulseSegment) :
    (touchRoute hit.1 touched hit.2).map TouchedRoute.routeID =
      if hit.2.routeID ∈ touched.map TouchedRoute.routeID then touched.map TouchedRoute.routeID
      else touched.map TouchedRoute.routeID ++ [hit.2.routeID] :=
  Counting.keys_bump (key_hit hit) (key_firstTouch hit) touched

/-- One more touch of a batch is one more hit on the routes. -/
theorem core_mergeTouched_touch (maxBefore : Int) {routes : List PublicRoute}
    {touched : List TouchedRoute} (hnodup : (routes.map PublicRoute.id).Nodup)
    (htouched : (touched.map TouchedRoute.routeID).Nodup) (hit : PulseSegment) :
    (mergeTouched maxBefore routes (touchRoute hit.1 touched hit.2)).map core =
      creditHit ((mergeTouched maxBefore routes touched).map core) hit := by
  have hids : ∀ touched, ((mergeTouched maxBefore routes touched).map core).map PublicRoute.id =
      routes.map PublicRoute.id ++ (newTouched routes touched).map TouchedRoute.routeID := by
    intro touched
    rw [List.map_map]
    exact ids_mergeTouched maxBefore routes touched
  have hnewIDs : ∀ touched : List TouchedRoute,
      (newTouched routes touched).map TouchedRoute.routeID =
        (touched.map TouchedRoute.routeID).filter fun id => id ∉ routes.map PublicRoute.id := by
    intro touched
    unfold newTouched
    rw [List.filter_map]
    rfl
  have hkeys : ((mergeTouched maxBefore routes (touchRoute hit.1 touched hit.2)).map core).map
      PublicRoute.id =
        (creditHit ((mergeTouched maxBefore routes touched).map core) hit).map PublicRoute.id := by
    rw [ids_creditHit, hids, hids, hnewIDs, hnewIDs, ids_touchRoute]
    by_cases hmem : hit.2.routeID ∈ touched.map TouchedRoute.routeID
    · rw [if_pos hmem, if_pos]
      rw [List.mem_append, List.mem_filter]
      by_cases hknown : hit.2.routeID ∈ routes.map PublicRoute.id
      · exact .inl hknown
      · exact .inr ⟨hmem, by simpa using hknown⟩
    · rw [if_neg hmem, List.filter_append]
      by_cases hknown : hit.2.routeID ∈ routes.map PublicRoute.id
      · rw [if_pos (List.mem_append_left _ hknown), List.filter_singleton]
        simp [hknown]
      · rw [if_neg, List.filter_singleton]
        · simp [hknown]
        · rw [List.mem_append, List.mem_filter, not_or]
          exact ⟨hknown, fun h => hmem h.1⟩
  refine Keyed.eq_of_keys_of_get hkeys ?_ fun routeID => ?_
  · rw [hids, hnewIDs]
    refine List.Nodup.append hnodup (List.Nodup.filter _ ?_) ?_
    · exact Counting.nodup_bump (key_hit hit) (key_firstTouch hit) htouched
    · intro id hknown hnew
      exact of_decide_eq_true (List.mem_filter.mp hnew).2 hknown
  · rw [get_creditHit, get_map_core, get_map_core, get_map_core, get_mergeTouched, get_mergeTouched,
      get_mergeTouched, get_touchRoute]
    by_cases hsame : hit.2.routeID = routeID
    · subst hsame
      rw [if_pos rfl, if_pos rfl]
      exact core_upsertedRoute_hit maxBefore hit _ _
    · rw [if_neg hsame, if_neg hsame]

/-! ## A whole batch -/

theorem foldl_segments (pulse : LiveRoutePulse) (segments : List PublicRouteSegment)
    (touched : List TouchedRoute) :
    segments.foldl (touchRoute pulse) touched =
      (segments.map fun segment => (pulse, segment)).foldl
        (fun touched hit => touchRoute hit.1 touched hit.2) touched := by
  rw [List.foldl_map]

theorem touchedRoutes_eq_foldl (pulses : List LiveRoutePulse) :
    touchedRoutes pulses =
      (pulseSegments pulses).foldl (fun touched hit => touchRoute hit.1 touched hit.2) [] := by
  have hall : ∀ touched, pulses.foldl
      (fun touched pulse => pulse.segments.foldl (touchRoute pulse) touched) touched =
        (pulseSegments pulses).foldl (fun touched hit => touchRoute hit.1 touched hit.2) touched := by
    induction pulses with
    | nil => exact fun _ => rfl
    | cons pulse pulses ih =>
      intro touched
      have hsegments : pulseSegments (pulse :: pulses) =
          (pulse.segments.map fun segment => (pulse, segment)) ++ pulseSegments pulses := rfl
      rw [List.foldl_cons, ih, hsegments, List.foldl_append, foldl_segments]
  exact hall []

theorem nodup_foldl_touch (hits : List PulseSegment) :
    ((hits.foldl (fun touched hit => touchRoute hit.1 touched hit.2) []).map
      TouchedRoute.routeID).Nodup := by
  induction hits using List.reverseRecOn with
  | nil => exact List.nodup_nil
  | append_singleton hits hit ih =>
    rw [List.foldl_append]
    exact Counting.nodup_bump (key_hit hit) (key_firstTouch hit) ih

theorem core_mergeTouched (maxBefore : Int) {routes : List PublicRoute}
    (hnodup : (routes.map PublicRoute.id).Nodup) (hits : List PulseSegment) :
    (mergeTouched maxBefore routes
        (hits.foldl (fun touched hit => touchRoute hit.1 touched hit.2) [])).map core =
      hits.foldl creditHit (routes.map core) := by
  induction hits using List.reverseRecOn with
  | nil => rw [List.foldl_nil, mergeTouched_nil, List.foldl_nil]
  | append_singleton hits hit ih =>
    rw [List.foldl_append, List.foldl_append, List.foldl_cons, List.foldl_nil, List.foldl_cons,
      List.foldl_nil, ← ih]
    exact core_mergeTouched_touch maxBefore hnodup (nodup_foldl_touch hits) hit

theorem core_normalizeRouteBuckets {routes : List PublicRoute}
    (h : ∀ route ∈ routes, sortedNames route.payloadTypeNames = route.payloadTypeNames) :
    (normalizeRouteBuckets routes).map core = routes.map core := by
  unfold normalizeRouteBuckets
  rw [List.map_map]
  refine List.map_congr_left fun route hroute => ?_
  simp [core, h route hroute]

/-- A batch does its hits, apart from the buckets. -/
theorem RoutesSound.core_upsert {part : RoutePart} (h : RoutesSound part)
    (pulses : List LiveRoutePulse) :
    (part.upsert pulses).routes.map core =
      (pulseSegments pulses).foldl creditHit (part.routes.map core) := by
  have hmerged : (mergeTouched (max 1 part.maxPacketCount) part.routes
      (touchedRoutes pulses)).map core =
        (pulseSegments pulses).foldl creditHit (part.routes.map core) := by
    rw [touchedRoutes_eq_foldl]
    exact core_mergeTouched _ h.indexes.nodup _
  show (upsertPulseRoutesBatch _ _ _ _).routes.map core = _
  rw [(upsert_spec h.indexes part.maxPacketCount pulses).merged]
  split
  · rw [core_normalizeRouteBuckets (sorted_mergeTouched h.sorted), hmerged]
  · exact hmerged

/-! ## The packets of all routes -/

def packetTotal (routes : List PublicRoute) : Int := (routes.map PublicRoute.packetCount).sum

@[simp] theorem packetTotal_map_core (routes : List PublicRoute) :
    packetTotal (routes.map core) = packetTotal routes := by
  unfold packetTotal
  rw [List.map_map]
  rfl

theorem packetTotal_credit (hit : PulseSegment) (routes : List PublicRoute) :
    packetTotal (routes.map fun route =>
        if route.id = hit.2.routeID then creditRoute hit route else route) =
      packetTotal routes + (routes.map PublicRoute.id).count hit.2.routeID := by
  induction routes with
  | nil => rfl
  | cons route routes ih =>
    unfold packetTotal at *
    rw [List.map_cons, List.map_cons, List.sum_cons, ih, List.map_cons, List.sum_cons,
      List.map_cons, List.count_cons]
    by_cases hsame : route.id = hit.2.routeID
    · rw [if_pos hsame]
      simp [creditRoute, hsame]
      omega
    · rw [if_neg hsame]
      simp [hsame]
      omega

theorem packetTotal_creditHit {routes : List PublicRoute}
    (h : (routes.map PublicRoute.id).Nodup) (hit : PulseSegment) :
    packetTotal (creditHit routes hit) = packetTotal routes + 1 := by
  unfold creditHit Counting.bump
  by_cases hmem : hit.2.routeID ∈ routes.map PublicRoute.id
  · have hany : (routes.any fun route => routeCounting.key route = hit.2.routeID) = true :=
      Counting.mem_keys_iff_any.mpr hmem
    rw [if_pos hany]
    refine (packetTotal_credit hit routes).trans ?_
    rw [List.count_eq_one_of_mem h hmem]
    rfl
  · have hnone : ¬ (routes.any fun route => routeCounting.key route = hit.2.routeID) = true :=
      fun hany => hmem (Counting.mem_keys_iff_any.mp hany)
    rw [if_neg hnone]
    unfold packetTotal
    rw [List.map_append, List.sum_append]
    rfl

theorem packetTotal_foldl_creditHit (hits : List PulseSegment) {routes : List PublicRoute}
    (h : (routes.map PublicRoute.id).Nodup) :
    packetTotal (hits.foldl creditHit routes) = packetTotal routes + hits.length := by
  induction hits generalizing routes with
  | nil => simp
  | cons hit hits ih =>
    have hnodup : ((creditHit routes hit).map PublicRoute.id).Nodup :=
      Counting.nodup_bump (key_creditRoute hit) (key_creditedRoute hit) h
    rw [List.foldl_cons, ih hnodup, packetTotal_creditHit h, List.length_cons]
    push_cast
    omega

end CartoLive.Web
