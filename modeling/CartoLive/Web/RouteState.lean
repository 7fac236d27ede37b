import CartoLive.Web.Reducer
import CartoLive.Web.Sanitize

/-!
# The route state of the page

The part of the page's state that belongs to its routes (`RoutePart`), what is true of it in
every state (`RoutesSound`), and how a call of the reducer changes it: envelopes bring at most
one batch of pulses into it (`routePart_applyPublicEnvelopes`).
-/

/-!
## A batch of touched routes

What `upsertPulseRoutesBatch` makes of a route list that is indexed: every known route gets
its hits in place, the others are appended (`mergeTouched`), and the buckets are balanced
again if the maximum has grown by more than the factor (`upsert_spec`).
-/

namespace CartoLive.Web

open CartoLive.Live CartoLive.Lib

/-! ## A raised maximum -/

/-- `after` is the maximum of `before` and some counts. -/
structure Raised (counts : List Int) (before after : Int) : Prop where
  le : before ≤ after
  bound : ∀ count ∈ counts, count ≤ after
  attained : after = before ∨ after ∈ counts

theorem Raised.nil (before : Int) : Raised [] before before := ⟨le_refl _, by simp, .inl rfl⟩

theorem Raised.single (count before : Int) : Raised [count] before (max before count) := by
  refine ⟨le_max_left _ _, by simp, ?_⟩
  rcases max_choice before count with h | h
  · exact .inl h
  · exact .inr (by simp [h])

theorem Raised.trans {a b : List Int} {before mid after : Int} (h : Raised a before mid)
    (h' : Raised b mid after) : Raised (a ++ b) before after := by
  refine ⟨h.le.trans h'.le, fun count hcount => ?_, ?_⟩
  · rcases List.mem_append.mp hcount with hcount | hcount
    · exact (h.bound count hcount).trans h'.le
    · exact h'.bound count hcount
  · rcases h'.attained with heq | hmem
    · rcases h.attained with heq' | hmem'
      · exact .inl (heq.trans heq')
      · exact .inr (List.mem_append_left _ (heq ▸ hmem'))
    · exact .inr (List.mem_append_right _ hmem)

/-! ## The two loops -/

section Loops

variable {routes : List PublicRoute} {routeIndex : String → Option Nat} (maxBefore : Int)

theorem map_knownRoute (h : Keyed.Indexes PublicRoute.id routeIndex routes)
    (update : TouchedRoute) :
    (knownRoute routes routeIndex update).map Prod.snd =
      Keyed.get PublicRoute.id update.routeID routes := by
  rw [h.get_eq, knownRoute]
  cases routeIndex update.routeID with
  | none => rfl
  | some index =>
    rw [Option.bind_some, Option.bind_some, Option.map_map]
    cases routes[index]? <;> rfl

/-- A route with what a batch has for it. -/
def mergedRoute (touched : List TouchedRoute) (route : PublicRoute) : PublicRoute :=
  ((Keyed.get TouchedRoute.routeID route.id touched).map fun update =>
    update.addTo maxBefore route).getD route

@[simp] theorem id_mergedRoute (touched : List TouchedRoute) (route : PublicRoute) :
    (mergedRoute maxBefore touched route).id = route.id := by
  unfold mergedRoute
  cases Keyed.get TouchedRoute.routeID route.id touched <;> rfl

/-- The touched routes that are not in the list. -/
def newTouched (routes : List PublicRoute) (touched : List TouchedRoute) : List TouchedRoute :=
  touched.filter fun update => update.routeID ∉ routes.map PublicRoute.id

/-- The routes after a batch, before the buckets are balanced. -/
def mergeTouched (routes : List PublicRoute) (touched : List TouchedRoute) : List PublicRoute :=
  routes.map (mergedRoute maxBefore touched) ++
    (newTouched routes touched).map (TouchedRoute.newRoute maxBefore)

/-- The counts that a batch leaves on the routes it touches. -/
def touchedCounts (routes : List PublicRoute) (touched : List TouchedRoute) : List Int :=
  (touched.filterMap fun update =>
    (Keyed.get PublicRoute.id update.routeID routes).map fun route =>
      route.packetCount + update.hits) ++
    (newTouched routes touched).map TouchedRoute.hits

theorem routes_updateKnown (h : Keyed.Indexes PublicRoute.id routeIndex routes)
    {touched : List TouchedRoute} (hnodup : (touched.map TouchedRoute.routeID).Nodup)
    (start : RouteBatchUpdate) (hstart : start.routes = routes) :
    (touched.foldl (updateKnownRoute routes routeIndex maxBefore) start).routes =
      routes.map (mergedRoute maxBefore touched) := by
  obtain ⟨-, hindexes, hget⟩ := foldl_updateKnownRoute maxBefore h hnodup start (hstart ▸ h)
    fun _ _ => by rw [hstart]
  have hmapped : Keyed.Indexes PublicRoute.id routeIndex
      (routes.map (mergedRoute maxBefore touched)) := h.map (id_mergedRoute maxBefore touched)
  refine Keyed.eq_of_keys_of_get (hindexes.keys_eq hmapped) hindexes.nodup fun routeID => ?_
  rw [hget, Keyed.get_map (id_mergedRoute maxBefore touched), hstart]
  cases hroute : Keyed.get PublicRoute.id routeID routes with
  | none => cases Keyed.get TouchedRoute.routeID routeID touched <;> rfl
  | some route =>
    rw [Option.map_some, mergedRoute, Keyed.key_of_get hroute]
    cases Keyed.get TouchedRoute.routeID routeID touched <;> rfl

theorem raised_updateKnown (h : Keyed.Indexes PublicRoute.id routeIndex routes)
    (touched : List TouchedRoute) (start : RouteBatchUpdate) :
    let after := touched.foldl (updateKnownRoute routes routeIndex maxBefore) start
    after.topologyChanged = start.topologyChanged ∧ after.routeIndex = start.routeIndex ∧
      Raised (touched.filterMap fun update =>
        (Keyed.get PublicRoute.id update.routeID routes).map fun route =>
          route.packetCount + update.hits) start.maxPacketCount after.maxPacketCount := by
  induction touched generalizing start with
  | nil => exact ⟨rfl, rfl, .nil _⟩
  | cons update touched ih =>
    obtain ⟨htopology, hindex, hraised⟩ :=
      ih (updateKnownRoute routes routeIndex maxBefore start update)
    rw [List.foldl_cons, List.filterMap_cons, ← map_knownRoute h]
    unfold updateKnownRoute at htopology hindex hraised ⊢
    cases hknown : knownRoute routes routeIndex update with
    | none =>
      rw [hknown] at htopology hindex hraised
      exact ⟨htopology, hindex, hraised⟩
    | some place =>
      rw [hknown] at htopology hindex hraised
      exact ⟨htopology, hindex, (Raised.single _ _).trans hraised⟩

theorem foldl_addNew (left : List TouchedRoute) (batch : RouteBatchUpdate) :
    let after := left.foldl (addNewRoute maxBefore) batch
    after.routes = batch.routes ++ left.map (TouchedRoute.newRoute maxBefore) ∧
      after.topologyChanged = (batch.topologyChanged || !left.isEmpty) ∧
      Raised (left.map TouchedRoute.hits) batch.maxPacketCount after.maxPacketCount := by
  induction left generalizing batch with
  | nil => exact ⟨by simp, by simp, .nil _⟩
  | cons update left ih =>
    obtain ⟨-, htopology, hraised⟩ := ih (addNewRoute maxBefore batch update)
    refine ⟨routes_foldl_addNewRoute _ _ _, ?_, (Raised.single _ _).trans hraised⟩
    rw [List.foldl_cons, htopology]
    simp [addNewRoute]

end Loops

/-! ## The whole batch -/

/-- What a batch does to an indexed route list. -/
structure BatchSpec (routes : List PublicRoute) (maxPacketCount : Int)
    (touched : List TouchedRoute) (after : RouteBatchUpdate) : Prop where
  indexes : Keyed.Indexes PublicRoute.id after.routeIndex after.routes
  merged : after.routes =
    if 5 * max 1 maxPacketCount < 4 * after.maxPacketCount then
      normalizeRouteBuckets (mergeTouched (max 1 maxPacketCount) routes touched)
    else mergeTouched (max 1 maxPacketCount) routes touched
  raised : 1 ≤ maxPacketCount →
    Raised (touchedCounts routes touched) maxPacketCount after.maxPacketCount
  topology : after.topologyChanged = !(newTouched routes touched).isEmpty

theorem mergeTouched_nil (maxBefore : Int) (routes : List PublicRoute) :
    mergeTouched maxBefore routes [] = routes := by
  have hsame : mergedRoute maxBefore [] = id := funext fun _ => rfl
  simp [mergeTouched, newTouched, hsame]

theorem upsert_spec {routes : List PublicRoute} {routeIndex : String → Option Nat}
    (h : Keyed.Indexes PublicRoute.id routeIndex routes) (maxPacketCount : Int)
    (pulses : List LiveRoutePulse) :
    BatchSpec routes maxPacketCount (touchedRoutes pulses)
      (upsertPulseRoutesBatch routes routeIndex maxPacketCount pulses) := by
  have hnodup := (touchedHold_touchedRoutes pulses).nodup
  unfold upsertPulseRoutesBatch
  generalize touchedRoutes pulses = touched at hnodup
  dsimp only
  split
  · rename_i hnone
    subst hnone
    refine ⟨h, ?_, fun _ => .nil _, rfl⟩
    dsimp only
    rw [mergeTouched_nil, if_neg (by omega)]
  · generalize hbefore : max 1 maxPacketCount = maxBefore
    have hleft : (touched.filter fun update => (knownRoute routes routeIndex update).isNone) =
        newTouched routes touched := by
      refine List.filter_congr fun update _ => ?_
      rw [Bool.eq_iff_iff, Option.isNone_iff_eq_none, knownRoute_eq_none_iff h,
        Keyed.get_eq_none_iff, decide_eq_true_iff]
    rw [hleft]
    have hroutes := routes_updateKnown maxBefore h hnodup
      { routes, routeIndex, maxPacketCount := maxBefore
        topologyChanged := false, visualChanged := false } rfl
    obtain ⟨htopology, hindex, hraised⟩ := raised_updateKnown maxBefore h touched
      { routes, routeIndex, maxPacketCount := maxBefore
        topologyChanged := false, visualChanged := false }
    generalize touched.foldl (updateKnownRoute routes routeIndex maxBefore) _ = known
      at hroutes htopology hindex hraised ⊢
    have hfresh : ∀ update ∈ newTouched routes touched,
        known.routeIndex update.routeID = none := by
      intro update hmem
      rw [hindex]
      exact h.place_eq_none.mpr (Keyed.get_eq_none_iff.mpr
        (of_decide_eq_true (List.mem_filter.mp hmem).2))
    have hknown : Keyed.Indexes PublicRoute.id known.routeIndex known.routes := by
      rw [hindex, hroutes]
      exact h.map (id_mergedRoute maxBefore touched)
    have hnodupNew : ((newTouched routes touched).map TouchedRoute.routeID).Nodup :=
      hnodup.sublist (List.filter_sublist.map _)
    obtain ⟨hindexes, -⟩ := foldl_addNewRoute maxBefore hnodupNew hknown hfresh
    obtain ⟨hadded, hchanged, hnew⟩ := foldl_addNew maxBefore (newTouched routes touched) known
    generalize (newTouched routes touched).foldl (addNewRoute maxBefore) known = batch
      at hindexes hadded hchanged hnew ⊢
    have hmerged : batch.routes = mergeTouched maxBefore routes touched := by
      rw [hadded, hroutes]
      rfl
    refine ⟨?_, ?_, fun hpos => ?_, ?_⟩
    · dsimp only
      split
      · exact hindexes.map fun _ => rfl
      · exact hindexes
    · dsimp only
      rw [hmerged, hbefore]
    · have hstart := hraised.trans hnew
      rw [← hbefore, max_eq_right hpos] at hstart
      exact hstart
    · rw [hchanged, htopology]
      rfl

end CartoLive.Web

namespace CartoLive.Web

open CartoLive.Live CartoLive.Lib

/-! ## The maximum of the counts -/

theorem raised_foldl_max (counts : List Int) (start : Int) :
    Raised counts start (counts.foldl max start) := by
  induction counts generalizing start with
  | nil => exact .nil start
  | cons count counts ih => exact (Raised.single count start).trans (ih (max start count))

theorem raised_maxRoutePacketCount (routes : List PublicRoute) :
    Raised (routes.map PublicRoute.packetCount) 1 (maxRoutePacketCount routes) := by
  have hfold := raised_foldl_max (routes.map PublicRoute.packetCount) 1
  rw [List.foldl_map] at hfold
  exact hfold

/-- There is one such maximum. -/
theorem Raised.unique {counts : List Int} {start m m' : Int} (h : Raised counts start m)
    (h' : Raised counts start m') : m = m' := by
  refine le_antisymm ?_ ?_
  · rcases h.attained with heq | hmem
    · exact heq ▸ h'.le
    · exact h'.bound _ hmem
  · rcases h'.attained with heq | hmem
    · exact heq ▸ h.le
    · exact h.bound _ hmem

@[simp] theorem packetCounts_normalizeRouteBuckets (routes : List PublicRoute) :
    (normalizeRouteBuckets routes).map PublicRoute.packetCount =
      routes.map PublicRoute.packetCount := by
  unfold normalizeRouteBuckets
  rw [List.map_map]
  rfl

@[simp] theorem ids_normalizeRouteBuckets (routes : List PublicRoute) :
    (normalizeRouteBuckets routes).map PublicRoute.id = routes.map PublicRoute.id := by
  unfold normalizeRouteBuckets
  rw [List.map_map]
  rfl

section Merge

variable {routes : List PublicRoute} {touched : List TouchedRoute} (maxBefore : Int)

theorem ids_mergeTouched (routes : List PublicRoute) (touched : List TouchedRoute) :
    (mergeTouched maxBefore routes touched).map PublicRoute.id =
      routes.map PublicRoute.id ++ (newTouched routes touched).map TouchedRoute.routeID := by
  unfold mergeTouched
  rw [List.map_append, List.map_map, List.map_map]
  congr 1
  exact List.map_congr_left fun route _ => id_mergedRoute maxBefore touched route

/-- A batch leaves on a route the old count or the count that it wrote. -/
theorem packetCount_mergedRoute_cases (touched : List TouchedRoute) {route : PublicRoute}
    (hnodup : (routes.map PublicRoute.id).Nodup) (hroute : route ∈ routes) :
    Keyed.get TouchedRoute.routeID route.id touched = none ∧
        mergedRoute maxBefore touched route = route ∨
      ∃ update ∈ touched, Keyed.get TouchedRoute.routeID route.id touched = some update ∧
        mergedRoute maxBefore touched route = update.addTo maxBefore route ∧
        route.packetCount + update.hits ∈ touchedCounts routes touched := by
  unfold mergedRoute
  cases hget : Keyed.get TouchedRoute.routeID route.id touched with
  | none => exact .inl ⟨rfl, rfl⟩
  | some update =>
    have hmem := Keyed.mem_of_get hget
    refine .inr ⟨update, hmem, rfl, rfl, List.mem_append_left _ ?_⟩
    refine List.mem_filterMap.mpr ⟨update, hmem, ?_⟩
    rw [Keyed.key_of_get hget, Keyed.get_of_mem hnodup hroute]
    rfl

/-- The maximum that the loops keep is that of the routes after the batch. -/
theorem raised_mergeTouched {m m' : Int} (hnodup : (routes.map PublicRoute.id).Nodup)
    (htouched : (touched.map TouchedRoute.routeID).Nodup) (hhits : ∀ update ∈ touched, 1 ≤ update.hits)
    (h : Raised (routes.map PublicRoute.packetCount) 1 m)
    (h' : Raised (touchedCounts routes touched) m m') :
    Raised ((mergeTouched maxBefore routes touched).map PublicRoute.packetCount) 1 m' := by
  have hmerged : ∀ route ∈ routes, (mergedRoute maxBefore touched route).packetCount ∈
      (mergeTouched maxBefore routes touched).map PublicRoute.packetCount := fun route hroute =>
    List.mem_map_of_mem (List.mem_append_left _ (List.mem_map_of_mem hroute))
  refine ⟨h.le.trans h'.le, fun count hcount => ?_, ?_⟩
  · obtain ⟨route, hmem, rfl⟩ := List.mem_map.mp hcount
    rcases List.mem_append.mp hmem with hmem | hmem
    · obtain ⟨before, hbefore, rfl⟩ := List.mem_map.mp hmem
      rcases packetCount_mergedRoute_cases maxBefore touched hnodup hbefore with
        ⟨-, hsame⟩ | ⟨update, -, -, hadd, hcounted⟩
      · rw [hsame]
        exact (h.bound _ (List.mem_map_of_mem hbefore)).trans h'.le
      · rw [hadd]
        exact h'.bound _ hcounted
    · obtain ⟨update, hupdate, rfl⟩ := List.mem_map.mp hmem
      exact h'.bound _ (List.mem_append_right _ (List.mem_map_of_mem hupdate))
  · rcases h'.attained with heq | hmem
    · rcases h.attained with hone | hold
      · exact .inl (heq.trans hone)
      · -- the route that had the maximum was not touched: it would have more now
        obtain ⟨route, hroute, hcount⟩ := List.mem_map.mp hold
        rcases packetCount_mergedRoute_cases maxBefore touched hnodup hroute with
          ⟨-, hsame⟩ | ⟨update, hupdate, -, -, hcounted⟩
        · have hkept := hmerged route hroute
          rw [hsame, hcount, ← heq] at hkept
          exact .inr hkept
        · have hle := h'.bound _ hcounted
          have hpos := hhits update hupdate
          omega
    · rcases List.mem_append.mp hmem with hknown | hnew
      · obtain ⟨update, hupdate, hcount⟩ := List.mem_filterMap.mp hknown
        obtain ⟨route, hroute, hvalue⟩ := Option.map_eq_some_iff.mp hcount
        have hget : Keyed.get TouchedRoute.routeID route.id touched = some update := by
          rw [Keyed.key_of_get hroute]
          exact Keyed.get_of_mem htouched hupdate
        have hkept := hmerged route (Keyed.mem_of_get hroute)
        rw [mergedRoute, hget] at hkept
        exact .inr (hvalue ▸ hkept)
      · obtain ⟨update, hupdate, hvalue⟩ := List.mem_map.mp hnew
        refine .inr (List.mem_map.mpr ⟨update.newRoute maxBefore, ?_, hvalue⟩)
        exact List.mem_append_right _ (List.mem_map_of_mem hupdate)

end Merge

/-- A touched route has been hit. -/
theorem one_le_hits {pulses : List LiveRoutePulse} {update : TouchedRoute}
    (h : update ∈ touchedRoutes pulses) : 1 ≤ update.hits := by
  have htouched := touchedHold_touchedRoutes pulses
  have hby := htouched.touchedBy update.routeID
  rw [Keyed.get_of_mem htouched.nodup h] at hby
  have hlength := List.length_pos_iff.mpr hby.hit
  have hcount := hby.count_eq
  omega

/-! ## Sound routes -/

/-- The part of the state that belongs to the routes. -/
structure RoutePart where
  routes : List PublicRoute
  routeIndex : String → Option Nat
  maxPacketCount : Int
  topologyRevision : Nat

def AppState.routePart (state : AppState) : RoutePart :=
  { routes := state.routes, routeIndex := state.routeIndex
    maxPacketCount := state.routeMaxPacketCount, topologyRevision := state.routeTopologyRevision }

/-- The index has the positions, the maximum is that of the counts, and names are sorted. -/
structure RoutesSound (part : RoutePart) : Prop where
  indexes : Keyed.Indexes PublicRoute.id part.routeIndex part.routes
  raised : Raised (part.routes.map PublicRoute.packetCount) 1 part.maxPacketCount
  sorted : ∀ route ∈ part.routes, sortedNames route.payloadTypeNames = route.payloadTypeNames

/-- One batch of pulses on the route part. -/
def RoutePart.upsert (part : RoutePart) (pulses : List LiveRoutePulse) : RoutePart :=
  let batch := upsertPulseRoutesBatch part.routes part.routeIndex part.maxPacketCount pulses
  { routes := batch.routes, routeIndex := batch.routeIndex
    maxPacketCount := batch.maxPacketCount
    topologyRevision := part.topologyRevision + if batch.topologyChanged then 1 else 0 }

theorem sorted_mergeTouched {maxBefore : Int} {routes : List PublicRoute}
    {touched : List TouchedRoute}
    (h : ∀ route ∈ routes, sortedNames route.payloadTypeNames = route.payloadTypeNames) :
    ∀ route ∈ mergeTouched maxBefore routes touched,
      sortedNames route.payloadTypeNames = route.payloadTypeNames := by
  intro route hroute
  rcases List.mem_append.mp hroute with hroute | hroute
  · obtain ⟨before, hbefore, rfl⟩ := List.mem_map.mp hroute
    unfold mergedRoute
    cases Keyed.get TouchedRoute.routeID before.id touched with
    | none => exact h before hbefore
    | some update => exact sortedNames_sortedNames _
  · obtain ⟨update, -, rfl⟩ := List.mem_map.mp hroute
    exact sortedNames_sortedNames _

theorem sorted_of_mem_normalizeRouteBuckets {routes : List PublicRoute} {route : PublicRoute}
    (h : route ∈ normalizeRouteBuckets routes) :
    sortedNames route.payloadTypeNames = route.payloadTypeNames := by
  obtain ⟨before, -, rfl⟩ := List.mem_map.mp h
  exact sortedNames_sortedNames _

/-- The new routes of a batch come behind the others. -/
theorem RoutesSound.ids_upsert {part : RoutePart} (h : RoutesSound part)
    (pulses : List LiveRoutePulse) :
    (part.upsert pulses).routes.map PublicRoute.id = part.routes.map PublicRoute.id ++
      (newTouched part.routes (touchedRoutes pulses)).map TouchedRoute.routeID := by
  show (upsertPulseRoutesBatch _ _ _ _).routes.map PublicRoute.id = _
  rw [(upsert_spec h.indexes part.maxPacketCount pulses).merged]
  split
  · rw [ids_normalizeRouteBuckets, ids_mergeTouched]
  · rw [ids_mergeTouched]

theorem RoutesSound.upsert {part : RoutePart} (h : RoutesSound part)
    (pulses : List LiveRoutePulse) : RoutesSound (part.upsert pulses) := by
  have hspec := upsert_spec h.indexes part.maxPacketCount pulses
  have hraised := raised_mergeTouched (max 1 part.maxPacketCount) h.indexes.nodup
    (touchedHold_touchedRoutes pulses).nodup (fun _ => one_le_hits) h.raised
    (hspec.raised h.raised.le)
  have hsorted : ∀ route ∈ mergeTouched (max 1 part.maxPacketCount) part.routes
      (touchedRoutes pulses), sortedNames route.payloadTypeNames = route.payloadTypeNames :=
    sorted_mergeTouched h.sorted
  refine ⟨hspec.indexes, ?_, ?_⟩
  · show Raised ((upsertPulseRoutesBatch _ _ _ _).routes.map PublicRoute.packetCount) 1 _
    rw [hspec.merged]
    split
    · rw [packetCounts_normalizeRouteBuckets]
      exact hraised
    · exact hraised
  · show ∀ route ∈ (upsertPulseRoutesBatch _ _ _ _).routes, _
    rw [hspec.merged]
    split
    · exact fun _ => sorted_of_mem_normalizeRouteBuckets
    · exact hsorted

/-! ## The reducer on the route part -/

@[simp] theorem routePart_withLatestSeq (state : AppState) (seq : Option Int) :
    (withLatestSeq state seq).routePart = state.routePart := by
  unfold withLatestSeq
  split
  · rfl
  · split <;> rfl

@[simp] theorem routePart_rememberSeq (state : AppState) (seq : Option Int) :
    (rememberSeq state seq).routePart = state.routePart := by
  unfold rememberSeq
  split
  · rfl
  · split
    · rfl
    · simp only [AppState.routePart]

@[simp] theorem routePart_mark (state : AppState) (message : LiveMessage) :
    (state.mark message).routePart = state.routePart := by
  simp [AppState.mark]

@[simp] theorem routePart_applyNonRouteEnvelope (state : AppState) (message : LiveMessage)
    (animate : Bool) : (applyNonRouteEnvelope state message animate).routePart = state.routePart := by
  unfold applyNonRouteEnvelope
  split
  · simp
  split
  · simp
  split
  · exact routePart_mark _ _
  · dsimp only
    split <;> exact routePart_mark _ _
  · rfl

@[simp] theorem routePart_step (loop : EnvelopeLoop) (message : LiveMessage) (animate : Bool) :
    (loop.step animate message).next.routePart = loop.next.routePart := by
  unfold EnvelopeLoop.step
  split
  · unfold EnvelopeLoop.applyPulse
    split
    · exact routePart_withLatestSeq _ _
    · dsimp only
      split
      · simp
      · refine (routePart_mark _ _).trans ?_
        simp only [AppState.routePart]
  · exact routePart_applyNonRouteEnvelope _ _ _

/-- The loop of `applyPublicEnvelopes` before its first round. -/
def AppState.startLoop (state : AppState) : EnvelopeLoop :=
  { next := state, pulseIDs := state.pulses.map fun pulse => pulse.id, acceptedPulses := [] }

/-- The loop of `applyPublicEnvelopes` after some rounds. -/
def AppState.loopOver (state : AppState) (messages : List LiveMessage) (animate : Bool) :
    EnvelopeLoop :=
  messages.foldl (EnvelopeLoop.step animate) state.startLoop

theorem routePart_foldl_step (loop : EnvelopeLoop) (messages : List LiveMessage) (animate : Bool) :
    (messages.foldl (EnvelopeLoop.step animate) loop).next.routePart = loop.next.routePart := by
  induction messages generalizing loop with
  | nil => rfl
  | cons message messages ih => rw [List.foldl_cons, ih, routePart_step]

theorem RoutePart.upsert_nil (part : RoutePart) : part.upsert [] = part := rfl

theorem applyPublicEnvelopes_eq (state : AppState) (messages : List LiveMessage) (animate : Bool) :
    applyPublicEnvelopes state messages animate =
      if (state.loopOver messages animate).acceptedPulses = [] then
        (state.loopOver messages animate).next
      else (state.loopOver messages animate).next.upsertRoutes
        (state.loopOver messages animate).acceptedPulses := rfl

/-- A call brings the pulses that it accepted into the routes, as one batch. -/
theorem routePart_applyPublicEnvelopes (state : AppState) (messages : List LiveMessage)
    (animate : Bool) :
    (applyPublicEnvelopes state messages animate).routePart =
      state.routePart.upsert (state.loopOver messages animate).acceptedPulses := by
  have hnext : (state.loopOver messages animate).next.routePart = state.routePart :=
    routePart_foldl_step state.startLoop messages animate
  rw [applyPublicEnvelopes_eq]
  split
  · rename_i hnone
    rw [hnone, hnext, RoutePart.upsert_nil]
  · rw [← hnext]
    rfl

theorem RoutesSound.applyPublicEnvelopes {state : AppState} (h : RoutesSound state.routePart)
    (messages : List LiveMessage) (animate : Bool) :
    RoutesSound (Web.applyPublicEnvelopes state messages animate).routePart := by
  rw [routePart_applyPublicEnvelopes]
  exact h.upsert _

theorem routePart_foldl_withLatestSeq (events : List RecoveredEvent) (state : AppState) :
    (events.foldl (fun next event => withLatestSeq next (some event.seq)) state).routePart =
      state.routePart := by
  induction events generalizing state with
  | nil => rfl
  | cons event events ih => rw [List.foldl_cons, ih, routePart_withLatestSeq]

/-- Recovered events are applied as envelopes. -/
theorem routePart_applyPublicEvents (state : AppState) (events : List RecoveredEvent) :
    ∃ messages, (applyPublicEvents state events).routePart =
      (applyPublicEnvelopes state messages false).routePart :=
  ⟨_, routePart_foldl_withLatestSeq _ _⟩

/-! ## Snapshots -/

theorem routesSound_initialAppState {snapshot : LiveState}
    (h : (snapshot.routes.map PublicRoute.id).Nodup) :
    RoutesSound (initialAppState snapshot).routePart where
  indexes := by
    have hids : ((normalizeRouteBuckets snapshot.routes).map PublicRoute.id).Nodup := by
      rw [ids_normalizeRouteBuckets]
      exact h
    exact Keyed.indexes_placesFrom Keyed.Indexes.nil hids fun _ _ => rfl
  raised := raised_maxRoutePacketCount _
  sorted _ := sorted_of_mem_normalizeRouteBuckets

/-- What a snapshot adds to the routes that are there. -/
def missingRoutes (routes : List PublicRoute) (snapshot : LiveState) : List PublicRoute :=
  (normalizeRouteBuckets snapshot.routes).filter fun route =>
    route.id ∉ routes.map PublicRoute.id

theorem mergeCurrentEntities_routes {part : RoutePart} (h : RoutesSound part)
    {snapshot : LiveState} (hnodup : (snapshot.routes.map PublicRoute.id).Nodup) :
    mergeCurrentEntities PublicRoute.id part.routes (normalizeRouteBuckets snapshot.routes) =
      part.routes ++ missingRoutes part.routes snapshot := by
  have hids : ((normalizeRouteBuckets snapshot.routes).map PublicRoute.id).Nodup := by
    rw [ids_normalizeRouteBuckets]
    exact hnodup
  exact Keyed.firstOfEach_append h.indexes.nodup hids

/-- The index is made again only where routes were missing. -/
theorem routePart_hydrateSnapshotTopology {current : AppState}
    (h : RoutesSound current.routePart) {snapshot : LiveState}
    (hnodup : (snapshot.routes.map PublicRoute.id).Nodup) :
    let missing := missingRoutes current.routes snapshot
    let routes := current.routes ++ missing
    (hydrateSnapshotTopology current snapshot).routePart =
      { routes
        routeIndex := if missing = [] then current.routeIndex else indexRoutes routes
        maxPacketCount := max current.routeMaxPacketCount (maxRoutePacketCount routes)
        topologyRevision := current.routeTopologyRevision + if missing = [] then 0 else 1 } := by
  have hmerged : mergeCurrentEntities PublicRoute.id current.routes
      (normalizeRouteBuckets snapshot.routes) =
        current.routes ++ missingRoutes current.routes snapshot :=
    mergeCurrentEntities_routes h hnodup
  unfold hydrateSnapshotTopology AppState.routePart
  dsimp only
  rw [hmerged]
  generalize missingRoutes _ snapshot = missing
  cases missing with
  | nil => simp
  | cons route missing => simp

theorem RoutesSound.hydrateSnapshotTopology {current : AppState} (h : RoutesSound current.routePart)
    {snapshot : LiveState} (hnodup : (snapshot.routes.map PublicRoute.id).Nodup) :
    RoutesSound (Web.hydrateSnapshotTopology current snapshot).routePart := by
  have hall : ((normalizeRouteBuckets snapshot.routes).map PublicRoute.id).Nodup := by
    rw [ids_normalizeRouteBuckets]
    exact hnodup
  have hids : ((current.routes ++ missingRoutes current.routes snapshot).map
      PublicRoute.id).Nodup := by
    rw [List.map_append]
    refine List.Nodup.append h.indexes.nodup (hall.sublist (List.filter_sublist.map _)) ?_
    intro id hcurrent hmissing
    obtain ⟨route, hroute, rfl⟩ := List.mem_map.mp hmissing
    exact of_decide_eq_true (List.mem_filter.mp hroute).2 hcurrent
  have hsorted : ∀ route ∈ current.routes ++ missingRoutes current.routes snapshot,
      sortedNames route.payloadTypeNames = route.payloadTypeNames := by
    intro route hroute
    rcases List.mem_append.mp hroute with hroute | hroute
    · exact h.sorted route hroute
    · exact sorted_of_mem_normalizeRouteBuckets (List.mem_filter.mp hroute).1
  rw [routePart_hydrateSnapshotTopology h hnodup]
  generalize missingRoutes current.routes snapshot = missing at hids hsorted ⊢
  refine ⟨?_, ?_, hsorted⟩
  · dsimp only
    split
    · rename_i hnone
      rw [hnone, List.append_nil]
      exact h.indexes
    · exact Keyed.indexes_placesFrom Keyed.Indexes.nil hids fun _ _ => rfl
  · -- the counts that were there are among those of all routes
    have hbefore := h.raised
    have hafter := raised_maxRoutePacketCount (current.routes ++ missing)
    refine ⟨hbefore.le.trans (le_max_left _ _), fun count hcount =>
      (hafter.bound count hcount).trans (le_max_right _ _), ?_⟩
    dsimp only
    rcases max_choice current.routeMaxPacketCount (maxRoutePacketCount (current.routes ++ missing))
      with hmax | hmax
    · rw [hmax]
      refine hbefore.attained.imp_right fun hmem => ?_
      rw [List.map_append]
      exact List.mem_append_left _ hmem
    · rw [hmax]
      exact hafter.attained

end CartoLive.Web
