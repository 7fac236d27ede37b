import CartoLive.Web.RouteState
import Mathlib.Data.List.Induction
import Mathlib.Order.Bounds.Basic

/-!
# How far a displayed bucket may lag behind

The bucket of a route is computed with the maximum of the counts at that time. Along with the
state of the page goes a note of the count and the maximum that each stored bucket was computed
with (`Marked`). The maximum stays within the rebalance factor of every noted one in the runs
in which no call raises it too far for a route that the call leaves alone, and in no others.
-/

/-!
## The route index of the page

In every state of the page route identifiers are distinct, the index has the position of
each, the maximum is that of the packet counts, and payload types are sorted without repeats.
Every call keeps the routes that are there, and the topology revision rises exactly when it
adds some.
-/

namespace CartoLive.Theorems.RouteIndex

open CartoLive.Live CartoLive.Lib CartoLive.Web

/-- The states that snapshots, envelopes and recovered events lead to. -/
inductive Reached : AppState → Prop
  | initial {snapshot : LiveState} (hnodup : (snapshot.routes.map PublicRoute.id).Nodup) :
      Reached (initialAppState snapshot)
  | envelopes {state : AppState} (messages : List LiveMessage) (animate : Bool)
      (h : Reached state) : Reached (applyPublicEnvelopes state messages animate)
  | events {state : AppState} (events : List RecoveredEvent) (h : Reached state) :
      Reached (applyPublicEvents state events)
  | hydrate {state : AppState} {snapshot : LiveState}
      (hnodup : (snapshot.routes.map PublicRoute.id).Nodup) (h : Reached state) :
      Reached (hydrateSnapshotTopology state snapshot)

theorem Reached.sound {state : AppState} (h : Reached state) : RoutesSound state.routePart := by
  induction h with
  | initial hnodup => exact routesSound_initialAppState hnodup
  | envelopes messages animate _ ih => exact ih.applyPublicEnvelopes messages animate
  | events events _ ih =>
    obtain ⟨messages, heq⟩ := routePart_applyPublicEvents _ events
    rw [heq]
    exact ih.applyPublicEnvelopes messages false
  | hydrate hnodup _ ih => exact ih.hydrateSnapshotTopology hnodup

/-- The index and the maximum agree with the routes. -/
structure IndexHolds (state : AppState) : Prop where
  distinct : (state.routes.map PublicRoute.id).Nodup
  index : ∀ id place, state.routeIndex id = some place ↔
    (state.routes.map PublicRoute.id)[place]? = some id
  maximum : IsGreatest {n | n = 1 ∨ ∃ route ∈ state.routes, route.packetCount = n}
    state.routeMaxPacketCount
  names : ∀ route ∈ state.routes, route.payloadTypeNames.Nodup ∧
    route.payloadTypeNames.Pairwise fun a b => utf16Key a ≤ utf16Key b

theorem nodup_sortedNames (names : List String) : (sortedNames names).Nodup :=
  (List.perm_insertionSort _ _).nodup_iff.mpr names.nodup_dedup

theorem pairwise_sortedNames (names : List String) :
    (sortedNames names).Pairwise fun a b => utf16Key a ≤ utf16Key b := by
  let le : String → String → Prop := fun a b => utf16Key a ≤ utf16Key b
  have : IsTrans String le := ⟨fun _ _ _ => le_trans⟩
  have : Std.Total le := ⟨fun _ _ => le_total _ _⟩
  exact List.pairwise_insertionSort le _

theorem indexHolds_of_sound {state : AppState} (h : RoutesSound state.routePart) :
    IndexHolds state where
  distinct := h.indexes.nodup
  index id place := by
    rw [List.getElem?_map, Option.map_eq_some_iff]
    exact h.indexes id place
  maximum := by
    refine ⟨?_, ?_⟩
    · refine h.raised.attained.imp_right fun hmem => ?_
      obtain ⟨route, hroute, hcount⟩ := List.mem_map.mp hmem
      exact ⟨route, hroute, hcount⟩
    · rintro n (rfl | ⟨route, hroute, rfl⟩)
      · exact h.raised.le
      · exact h.raised.bound _ (List.mem_map_of_mem hroute)
  names route hroute := by
    rw [← h.sorted route hroute]
    exact ⟨nodup_sortedNames _, pairwise_sortedNames _⟩

/-- Routes are kept, and the topology revision rises exactly when there are more. -/
structure Grows (before after : RoutePart) : Prop where
  kept : ∀ route ∈ before.routes, route.id ∈ after.routes.map PublicRoute.id
  monotone : before.topologyRevision ≤ after.topologyRevision
  rises : before.topologyRevision < after.topologyRevision ↔
    ∃ route ∈ after.routes, route.id ∉ before.routes.map PublicRoute.id

/-- New routes are appended and announced. -/
theorem grows_of_appended {before after : RoutePart} (added : List String)
    (hids : after.routes.map PublicRoute.id = before.routes.map PublicRoute.id ++ added)
    (hadded : ∀ id ∈ added, id ∉ before.routes.map PublicRoute.id)
    (hrevision : after.topologyRevision =
      before.topologyRevision + if added = [] then 0 else 1) : Grows before after := by
  refine ⟨fun route hroute => ?_, by omega, ?_⟩
  · rw [hids]
    exact List.mem_append_left _ (List.mem_map_of_mem hroute)
  · have hnew : (∃ route ∈ after.routes, route.id ∉ before.routes.map PublicRoute.id) ↔
        added ≠ [] := by
      constructor
      · rintro ⟨route, hroute, hfresh⟩ hnone
        have hmem := List.mem_map_of_mem (f := PublicRoute.id) hroute
        rw [hids, hnone, List.append_nil] at hmem
        exact hfresh hmem
      · intro hne
        obtain ⟨id, hid⟩ := List.exists_mem_of_ne_nil _ hne
        have hmem : id ∈ after.routes.map PublicRoute.id := by
          rw [hids]
          exact List.mem_append_right _ hid
        obtain ⟨route, hroute, rfl⟩ := List.mem_map.mp hmem
        exact ⟨route, hroute, hadded _ hid⟩
    rw [hnew, hrevision]
    by_cases hnone : added = []
    · simp [hnone]
    · simp [hnone]

theorem grows_upsert {part : RoutePart} (h : RoutesSound part) (pulses : List LiveRoutePulse) :
    Grows part (part.upsert pulses) := by
  refine grows_of_appended _ (h.ids_upsert pulses) (fun id hid => ?_) ?_
  · obtain ⟨update, hupdate, rfl⟩ := List.mem_map.mp hid
    exact of_decide_eq_true (List.mem_filter.mp hupdate).2
  · show _ + (if (upsertPulseRoutesBatch _ _ _ _).topologyChanged = true then 1 else 0) = _
    rw [(upsert_spec h.indexes part.maxPacketCount pulses).topology]
    cases newTouched part.routes (touchedRoutes pulses) <;> rfl

theorem grows_applyPublicEnvelopes {state : AppState} (h : RoutesSound state.routePart)
    (messages : List LiveMessage) (animate : Bool) :
    Grows state.routePart (applyPublicEnvelopes state messages animate).routePart := by
  rw [routePart_applyPublicEnvelopes]
  exact grows_upsert h _

theorem grows_hydrateSnapshotTopology {state : AppState} (h : RoutesSound state.routePart)
    {snapshot : LiveState} (hnodup : (snapshot.routes.map PublicRoute.id).Nodup) :
    Grows state.routePart (hydrateSnapshotTopology state snapshot).routePart := by
  rw [routePart_hydrateSnapshotTopology h hnodup]
  refine grows_of_appended ((missingRoutes state.routes snapshot).map PublicRoute.id)
    List.map_append (fun id hid => ?_) ?_
  · obtain ⟨route, hroute, rfl⟩ := List.mem_map.mp hid
    exact of_decide_eq_true (List.mem_filter.mp hroute).2
  · dsimp only [AppState.routePart]
    cases missingRoutes state.routes snapshot <;> rfl

/-- A page that starts without routes. -/
def barePage : LiveState :=
  { serverTime := 0, stats := none, nodes := [], routes := [], recentPulses := []
    recentActivity := [] }

end CartoLive.Theorems.RouteIndex

namespace CartoLive.Theorems.BucketDrift

open CartoLive.Live CartoLive.Lib CartoLive.Web

/-! ## What the buckets were computed with -/

/-- The count and the maximum that the bucket of each route was computed with. -/
abbrev Basis := String → Int × Int

/-- The balancing of all buckets. -/
def balancedBasis (routes : List PublicRoute) : Basis := fun id =>
  (((Keyed.get PublicRoute.id id routes).map PublicRoute.packetCount).getD 0,
    maxRoutePacketCount routes)

/-- The arguments of `frequencyBucket` in one `upsertPulseRoutesBatch`. -/
def basisAfter (part : RoutePart) (basis : Basis) (pulses : List LiveRoutePulse) : Basis :=
  let after := part.upsert pulses
  let maxBefore := max 1 part.maxPacketCount
  if 5 * maxBefore < 4 * after.maxPacketCount then balancedBasis after.routes
  else fun id =>
    match Keyed.get TouchedRoute.routeID id (touchedRoutes pulses),
      Keyed.get PublicRoute.id id part.routes with
    | none, _ => basis id
    | some update, some route => (route.packetCount + update.hits, maxBefore)
    | some update, none => (update.hits, max maxBefore update.hits)

/-- A state of the page with the note on its buckets. -/
structure Marked where
  state : AppState
  basis : Basis

/-- A call of `applyPublicEnvelopes`: the envelopes, and whether they are animated. -/
abbrev Call := List LiveMessage × Bool

namespace Marked

def start (snapshot : LiveState) : Marked :=
  { state := initialAppState snapshot
    basis := balancedBasis (normalizeRouteBuckets snapshot.routes) }

/-- The pulses that a call brings into the routes. -/
def accepted (marked : Marked) (call : Call) : List LiveRoutePulse :=
  (marked.state.loopOver call.1 call.2).acceptedPulses

def apply (marked : Marked) (call : Call) : Marked :=
  { state := applyPublicEnvelopes marked.state call.1 call.2
    basis := basisAfter marked.state.routePart marked.basis (marked.accepted call) }

def run (snapshot : LiveState) (calls : List Call) : Marked := calls.foldl apply (start snapshot)

end Marked

/-- A stored bucket was computed from the count that the route has, and with a maximum within
the rebalance factor, five quarters, of the present one. -/
structure FreshRoute (part : RoutePart) (basis : Basis) (route : PublicRoute) : Prop where
  count : (basis route.id).1 = route.packetCount
  bucket : route.frequencyBucket = frequencyBucket (basis route.id).1 (basis route.id).2
  below : (basis route.id).2 ≤ part.maxPacketCount
  within : 4 * part.maxPacketCount ≤ 5 * (basis route.id).2

def Fresh (part : RoutePart) (basis : Basis) : Prop := ∀ route ∈ part.routes, FreshRoute part basis route

/-- The maximum that a batch leads to. -/
def grownMaximum (part : RoutePart) (pulses : List LiveRoutePulse) : Int :=
  (touchedCounts part.routes (touchedRoutes pulses)).foldl max part.maxPacketCount

/-- A batch that does not balance the buckets raises the maximum no further than the factor
over what the bucket of any route outside of the batch was computed with. -/
def Steady (part : RoutePart) (basis : Basis) (pulses : List LiveRoutePulse) : Prop :=
  4 * grownMaximum part pulses ≤ 5 * part.maxPacketCount →
    ∀ route ∈ part.routes, route.id ∉ (touchedRoutes pulses).map TouchedRoute.routeID →
      4 * grownMaximum part pulses ≤ 5 * (basis route.id).2

/-! ## One batch -/

/-- What the note always says: the counts, the buckets and older maxima. -/
structure Noted (part : RoutePart) (basis : Basis) : Prop where
  sound : RoutesSound part
  noted : ∀ route ∈ part.routes, (basis route.id).1 = route.packetCount ∧
    route.frequencyBucket = frequencyBucket (basis route.id).1 (basis route.id).2 ∧
    (basis route.id).2 ≤ part.maxPacketCount

theorem maxPacketCount_upsert {part : RoutePart} (h : RoutesSound part)
    (pulses : List LiveRoutePulse) :
    (part.upsert pulses).maxPacketCount = grownMaximum part pulses :=
  ((upsert_spec h.indexes part.maxPacketCount pulses).raised h.raised.le).unique
    (raised_foldl_max _ _)

theorem fresh_iff {part : RoutePart} {basis : Basis} (h : Noted part basis) :
    Fresh part basis ↔ ∀ route ∈ part.routes, 4 * part.maxPacketCount ≤ 5 * (basis route.id).2 := by
  refine forall₂_congr fun route hroute => ⟨FreshRoute.within, fun hwithin => ?_⟩
  obtain ⟨hcount, hbucket, hbelow⟩ := h.noted route hroute
  exact ⟨hcount, hbucket, hbelow, hwithin⟩

/-- Balanced routes are noted as they are. -/
theorem balancedBasis_of_mem {routes : List PublicRoute}
    (hnodup : (routes.map PublicRoute.id).Nodup) {route : PublicRoute} (h : route ∈ routes) :
    balancedBasis routes route.id = (route.packetCount, maxRoutePacketCount routes) := by
  unfold balancedBasis
  rw [Keyed.get_of_mem hnodup h]
  rfl

theorem maxRoutePacketCount_normalizeRouteBuckets (routes : List PublicRoute) :
    maxRoutePacketCount (normalizeRouteBuckets routes) = maxRoutePacketCount routes := by
  refine Raised.unique (raised_maxRoutePacketCount _) ?_
  rw [packetCounts_normalizeRouteBuckets]
  exact raised_maxRoutePacketCount routes

theorem frequencyBucket_of_mem_normalizeRouteBuckets {routes : List PublicRoute}
    {route : PublicRoute} (h : route ∈ normalizeRouteBuckets routes) :
    route.frequencyBucket = frequencyBucket route.packetCount (maxRoutePacketCount routes) := by
  obtain ⟨before, -, rfl⟩ := List.mem_map.mp h
  rfl

section Batch

variable {part : RoutePart} {basis : Basis} (h : Noted part basis) (pulses : List LiveRoutePulse)
include h

/-- A batch that grows the maximum by more than the factor computes all buckets with it. -/
theorem noted_balanced (hgrown : 5 * part.maxPacketCount < 4 * grownMaximum part pulses) :
    ∀ route ∈ (part.upsert pulses).routes,
      basisAfter part basis pulses route.id = (route.packetCount, grownMaximum part pulses) ∧
        route.frequencyBucket =
          frequencyBucket route.packetCount (grownMaximum part pulses) := by
  have hspec := upsert_spec h.sound.indexes part.maxPacketCount pulses
  have hmax := maxPacketCount_upsert h.sound pulses
  have hone : max 1 part.maxPacketCount = part.maxPacketCount := max_eq_right h.sound.raised.le
  have hsound := h.sound.upsert pulses
  have hgreatest : maxRoutePacketCount (part.upsert pulses).routes = grownMaximum part pulses := by
    rw [← hmax]
    exact (raised_maxRoutePacketCount _).unique hsound.raised
  intro route hroute
  constructor
  · unfold basisAfter
    rw [hone, hmax, if_pos hgrown, balancedBasis_of_mem hsound.indexes.nodup hroute, hgreatest]
  · have hroutes : (part.upsert pulses).routes =
        normalizeRouteBuckets (mergeTouched part.maxPacketCount part.routes (touchedRoutes pulses)) := by
      have hmerged := hspec.merged
      rw [hone, show (upsertPulseRoutesBatch part.routes part.routeIndex part.maxPacketCount
        pulses).maxPacketCount = grownMaximum part pulses from hmax, if_pos hgrown] at hmerged
      exact hmerged
    rw [hroutes] at hroute
    rw [hroutes, maxRoutePacketCount_normalizeRouteBuckets] at hgreatest
    rw [frequencyBucket_of_mem_normalizeRouteBuckets hroute, hgreatest]

/-- Another batch writes into the routes it touches, and nothing else. -/
theorem unbalanced (hgrown : 4 * grownMaximum part pulses ≤ 5 * part.maxPacketCount) :
    (part.upsert pulses).routes =
        mergeTouched part.maxPacketCount part.routes (touchedRoutes pulses) ∧
      ∀ id, basisAfter part basis pulses id =
        match Keyed.get TouchedRoute.routeID id (touchedRoutes pulses),
          Keyed.get PublicRoute.id id part.routes with
        | none, _ => basis id
        | some update, some route => (route.packetCount + update.hits, part.maxPacketCount)
        | some update, none => (update.hits, max part.maxPacketCount update.hits) := by
  have hmax := maxPacketCount_upsert h.sound pulses
  have hone : max 1 part.maxPacketCount = part.maxPacketCount := max_eq_right h.sound.raised.le
  have hafter : (upsertPulseRoutesBatch part.routes part.routeIndex part.maxPacketCount
      pulses).maxPacketCount = grownMaximum part pulses := hmax
  refine ⟨?_, fun id => ?_⟩
  · have hmerged := (upsert_spec h.sound.indexes part.maxPacketCount pulses).merged
    rw [hone, hafter, if_neg (by omega)] at hmerged
    exact hmerged
  · unfold basisAfter
    rw [hone, hmax, if_neg (by omega)]

/-- In such a batch a route that it leaves alone keeps its bucket and the note on it; the
others are computed with the maximum before the batch, or their own count. -/
theorem noted_unbalanced (hgrown : 4 * grownMaximum part pulses ≤ 5 * part.maxPacketCount) :
    ∀ route ∈ (part.upsert pulses).routes,
      (route ∈ part.routes ∧ route.id ∉ (touchedRoutes pulses).map TouchedRoute.routeID ∧
        basisAfter part basis pulses route.id = basis route.id) ∨
      ∃ m, basisAfter part basis pulses route.id = (route.packetCount, m) ∧
        route.frequencyBucket = frequencyBucket route.packetCount m ∧
        part.maxPacketCount ≤ m ∧ m ≤ grownMaximum part pulses := by
  obtain ⟨hroutes, hbasis⟩ := unbalanced h pulses hgrown
  have hraised : Raised (touchedCounts part.routes (touchedRoutes pulses)) part.maxPacketCount
      (grownMaximum part pulses) := raised_foldl_max _ _
  intro route hroute
  rw [hroutes] at hroute
  rcases List.mem_append.mp hroute with hroute | hroute
  · obtain ⟨before, hbefore, rfl⟩ := List.mem_map.mp hroute
    rw [hbasis, id_mergedRoute, Keyed.get_of_mem h.sound.indexes.nodup hbefore]
    rcases packetCount_mergedRoute_cases part.maxPacketCount (touchedRoutes pulses)
      h.sound.indexes.nodup hbefore with ⟨hnone, hsame⟩ | ⟨update, -, hget, hadd, hcount⟩
    · rw [hnone, hsame]
      exact .inl ⟨hbefore, Keyed.get_eq_none_iff.mp hnone, rfl⟩
    · rw [hget, hadd]
      exact .inr ⟨part.maxPacketCount, rfl, rfl, le_refl _, hraised.le⟩
  · obtain ⟨update, hupdate, rfl⟩ := List.mem_map.mp hroute
    obtain ⟨htouched, hfresh⟩ := List.mem_filter.mp hupdate
    have hnone : Keyed.get PublicRoute.id update.routeID part.routes = none :=
      Keyed.get_eq_none_iff.mpr (of_decide_eq_true hfresh)
    have hbound := hraised.bound update.hits
      (List.mem_append_right _ (List.mem_map_of_mem hupdate))
    have hvalue : basisAfter part basis pulses update.routeID =
        (update.hits, max part.maxPacketCount update.hits) := by
      rw [hbasis, Keyed.get_of_mem (touchedHold_touchedRoutes pulses).nodup htouched, hnone]
    exact .inr ⟨max part.maxPacketCount update.hits, hvalue, rfl, le_max_left _ _,
      max_le hraised.le hbound⟩

/-- A batch keeps what is noted. -/
theorem Noted.upsert : Noted (part.upsert pulses) (basisAfter part basis pulses) := by
  have hmax := maxPacketCount_upsert h.sound pulses
  refine ⟨h.sound.upsert pulses, fun route hroute => ?_⟩
  rw [hmax]
  by_cases hgrown : 5 * part.maxPacketCount < 4 * grownMaximum part pulses
  · obtain ⟨hbasis, hbucket⟩ := noted_balanced h pulses hgrown route hroute
    rw [hbasis]
    exact ⟨rfl, hbucket, le_refl _⟩
  · rcases noted_unbalanced h pulses (by omega) route hroute with
      ⟨hbefore, -, hbasis⟩ | ⟨m, hbasis, hbucket, -, hbelow⟩
    · obtain ⟨hcount, hbucket, hbelow⟩ := h.noted route hbefore
      rw [hbasis]
      exact ⟨hcount, hbucket, hbelow.trans (raised_foldl_max _ _).le⟩
    · rw [hbasis]
      exact ⟨rfl, hbucket, hbelow⟩

/-- After a batch the buckets are fresh if and only if the batch is steady. -/
theorem fresh_upsert_iff :
    Fresh (part.upsert pulses) (basisAfter part basis pulses) ↔ Steady part basis pulses := by
  rw [fresh_iff (h.upsert pulses), maxPacketCount_upsert h.sound pulses]
  have hpos := h.sound.raised.le
  have hle := (raised_foldl_max (touchedCounts part.routes (touchedRoutes pulses))
    part.maxPacketCount).le
  change part.maxPacketCount ≤ grownMaximum part pulses at hle
  constructor
  · intro hwithin hgrown route hroute huntouched
    -- the route is still there, with the note that it had
    have hkept : route ∈ (part.upsert pulses).routes ∧
        basisAfter part basis pulses route.id = basis route.id := by
      obtain ⟨hroutes, hbasis⟩ := unbalanced h pulses hgrown
      have hnone := Keyed.get_eq_none_iff.mpr huntouched
      have hsame : mergedRoute part.maxPacketCount (touchedRoutes pulses) route = route := by
        rw [mergedRoute, hnone]
        rfl
      refine ⟨?_, by rw [hbasis, hnone]⟩
      rw [hroutes, ← hsame]
      exact List.mem_append_left _ (List.mem_map_of_mem hroute)
    have hnow := hwithin route hkept.1
    rwa [hkept.2] at hnow
  · intro hsteady route hroute
    by_cases hgrown : 5 * part.maxPacketCount < 4 * grownMaximum part pulses
    · obtain ⟨hbasis, -⟩ := noted_balanced h pulses hgrown route hroute
      rw [hbasis]
      dsimp only
      omega
    · rcases noted_unbalanced h pulses (by omega) route hroute with
        ⟨hbefore, huntouched, hbasis⟩ | ⟨m, hbasis, -, hlow, -⟩
      · rw [hbasis]
        exact hsteady (by omega) route hbefore huntouched
      · rw [hbasis]
        dsimp only
        omega

end Batch

/-! ## Runs -/

section Run

variable {snapshot : LiveState}

theorem noted_start (hnodup : (snapshot.routes.map PublicRoute.id).Nodup) :
    Noted (Marked.start snapshot).state.routePart (Marked.start snapshot).basis := by
  have hsound := routesSound_initialAppState hnodup
  refine ⟨hsound, fun route hroute => ?_⟩
  change route ∈ normalizeRouteBuckets snapshot.routes at hroute
  have hbasis : (Marked.start snapshot).basis route.id =
      (route.packetCount, maxRoutePacketCount (normalizeRouteBuckets snapshot.routes)) :=
    balancedBasis_of_mem hsound.indexes.nodup hroute
  rw [hbasis]
  refine ⟨rfl, ?_, le_refl _⟩
  rw [maxRoutePacketCount_normalizeRouteBuckets]
  exact frequencyBucket_of_mem_normalizeRouteBuckets hroute

theorem fresh_start (hnodup : (snapshot.routes.map PublicRoute.id).Nodup) :
    Fresh (Marked.start snapshot).state.routePart (Marked.start snapshot).basis := by
  rw [fresh_iff (noted_start hnodup)]
  intro route hroute
  have hsound := routesSound_initialAppState hnodup
  change route ∈ normalizeRouteBuckets snapshot.routes at hroute
  have hbasis : (Marked.start snapshot).basis route.id =
      (route.packetCount, maxRoutePacketCount (normalizeRouteBuckets snapshot.routes)) :=
    balancedBasis_of_mem hsound.indexes.nodup hroute
  have hpos := hsound.raised.le
  rw [hbasis]
  change 4 * maxRoutePacketCount (normalizeRouteBuckets snapshot.routes) ≤
    5 * maxRoutePacketCount (normalizeRouteBuckets snapshot.routes)
  change 1 ≤ maxRoutePacketCount (normalizeRouteBuckets snapshot.routes) at hpos
  omega

theorem routePart_apply (marked : Marked) (call : Call) :
    (marked.apply call).state.routePart = marked.state.routePart.upsert (marked.accepted call) :=
  routePart_applyPublicEnvelopes marked.state call.1 call.2

theorem run_append_singleton (snapshot : LiveState) (calls : List Call) (call : Call) :
    Marked.run snapshot (calls ++ [call]) = (Marked.run snapshot calls).apply call := by
  unfold Marked.run
  rw [List.foldl_append]
  rfl

theorem noted_run (hnodup : (snapshot.routes.map PublicRoute.id).Nodup) (calls : List Call) :
    Noted (Marked.run snapshot calls).state.routePart (Marked.run snapshot calls).basis := by
  induction calls using List.reverseRecOn with
  | nil => exact noted_start hnodup
  | append_singleton calls call ih =>
    rw [run_append_singleton, routePart_apply]
    exact ih.upsert _

/-- The next call of a run. -/
theorem fresh_next_iff (hnodup : (snapshot.routes.map PublicRoute.id).Nodup) (calls : List Call)
    (call : Call) :
    Fresh (Marked.run snapshot (calls ++ [call])).state.routePart
        (Marked.run snapshot (calls ++ [call])).basis ↔
      Steady (Marked.run snapshot calls).state.routePart (Marked.run snapshot calls).basis
        ((Marked.run snapshot calls).accepted call) := by
  rw [run_append_singleton, routePart_apply]
  exact fresh_upsert_iff (noted_run hnodup calls) _

/-- The buckets are fresh in all states of a run if and only if all its calls are steady. -/
theorem buckets_fresh_iff_steady (hnodup : (snapshot.routes.map PublicRoute.id).Nodup)
    (calls : List Call) :
    (∀ before, before <+: calls →
      Fresh (Marked.run snapshot before).state.routePart (Marked.run snapshot before).basis) ↔
    ∀ before call, before ++ [call] <+: calls →
      Steady (Marked.run snapshot before).state.routePart (Marked.run snapshot before).basis
        ((Marked.run snapshot before).accepted call) := by
  constructor
  · intro hfresh before call hprefix
    exact (fresh_next_iff hnodup before call).mp (hfresh _ hprefix)
  · intro hsteady before hprefix
    rcases List.eq_nil_or_concat' before with rfl | ⟨earlier, call, rfl⟩
    · exact fresh_start hnodup
    · exact (fresh_next_iff hnodup earlier call).mpr (hsteady earlier call hprefix)

end Run

/-! ## A maximum that grows in small steps -/

def pointAt (nodeID : String) : PublicRouteEndpoint :=
  { nodeID, label := nodeID, lat := .fin 45, lng := .fin (-75), pathHash3 := "" }

def routeWith (id : String) (packetCount : Int) : PublicRoute :=
  { id, source := pointAt "A", target := pointAt "B", distanceKM := .fin 1, packetCount
    lastHeard := 1, frequencyBucket := 0, payloadTypeNames := ["ADVERT"] }

/-- Two routes with four packets each. -/
def twoRoutes : LiveState :=
  { serverTime := 1, stats := none, nodes := [], routes := [routeWith "r1" 4, routeWith "r2" 4]
    recentPulses := [], recentActivity := [] }

def pulseOn (routeID : String) (id : String) (seq : Int) : LiveMessage :=
  { type := .event, seq := some seq, latestSeq := some seq, serverTime := some 1
    receivedAt := some 1
    data := some (.routePulse
      { seq, id, iata := "YOW", region := "YOW", payloadTypeName := "ADVERT", messageSender := ""
        messageText := "", messageAnchor := none, heardAt := 1
        segments := [{ routeID, source := pointAt "A", target := pointAt "B"
                       distanceKM := .fin 1 }]
        receivedAt := none, displayAt := none }) }

/-- Two calls with one more packet each on the first route. -/
def twoSteps : List Call := [([pulseOn "r1" "p1" 1], true), ([pulseOn "r1" "p2" 2], true)]

/-- The second route's bucket is that of a maximum of four when the maximum is six. -/
theorem buckets_drift :
    ¬ ∀ snapshot : LiveState, (snapshot.routes.map PublicRoute.id).Nodup → ∀ calls : List Call,
      Fresh (Marked.run snapshot calls).state.routePart (Marked.run snapshot calls).basis := by
  intro h
  have hwithin := fun route hroute => (h twoRoutes (by decide) twoSteps route hroute).within
  revert hwithin
  show ¬ ∀ route ∈ (Marked.run twoRoutes twoSteps).state.routes,
    4 * (Marked.run twoRoutes twoSteps).state.routeMaxPacketCount ≤
      5 * ((Marked.run twoRoutes twoSteps).basis route.id).2
  decide +kernel

/-- One step alone is still within the factor. -/
theorem fresh_iff_steady_in_one_step :
    (∀ before, before <+: [twoSteps.head (by decide)] →
      Fresh (Marked.run twoRoutes before).state.routePart (Marked.run twoRoutes before).basis) ↔
    ∀ before call, before ++ [call] <+: [twoSteps.head (by decide)] →
      Steady (Marked.run twoRoutes before).state.routePart (Marked.run twoRoutes before).basis
        ((Marked.run twoRoutes before).accepted call) :=
  buckets_fresh_iff_steady (by decide) [twoSteps.head (by decide)]

end CartoLive.Theorems.BucketDrift
