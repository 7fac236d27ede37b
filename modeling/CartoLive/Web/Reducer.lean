import CartoLive.Lib.Tally
import CartoLive.Web.AppState
import Mathlib.Data.String.Lemmas

/-!
# What the reducer keeps

A route of the page counts the segments of pulses that lie on it. The hits on a route are
these segments with the time and payload type of their pulse (`hitsOn`); a route record
tells their number, the latest time and the payload types (`Tallies`). Bringing accepted
pulses into the route list adds their hits to what each record tells
(`RoutesHold.upsert`). A run of fresh durable events, however it is cut into batches, adds
its hits and leaves the latest version of each node (`applied_applyBatches`).
-/

namespace CartoLive.Web

open CartoLive.Live CartoLive.Lib

/-! ## Sorted names -/

theorem utf16Rank_injective : Function.Injective utf16Rank := by
  intro a b h
  have ha : a.toNat < 0x110000 := by
    have hvalid := a.valid
    simp only [UInt32.isValidChar, Nat.isValidChar] at hvalid
    show a.val.toNat < _
    omega
  have hb : b.toNat < 0x110000 := by
    have hvalid := b.valid
    simp only [UInt32.isValidChar, Nat.isValidChar] at hvalid
    show b.val.toNat < _
    omega
  refine Char.toNat_inj.mp ?_
  unfold utf16Rank at h
  split at h <;> split at h <;> omega

theorem utf16Key_injective : Function.Injective utf16Key := fun _ _ h =>
  String.toList_injective (List.map_injective_iff.mpr utf16Rank_injective h)

@[simp] theorem mem_sortedNames {names : List String} {name : String} :
    name ∈ sortedNames names ↔ name ∈ names := by
  simp [sortedNames, List.mem_insertionSort]

/-- Texts are sorted alike in whatever order they come. -/
theorem sort_utf16_eq_of_perm {texts texts' : List String} (h : texts.Perm texts') :
    (texts.insertionSort fun a b => utf16Key a ≤ utf16Key b) =
      texts'.insertionSort fun a b => utf16Key a ≤ utf16Key b := by
  let le : String → String → Prop := fun a b => utf16Key a ≤ utf16Key b
  have : IsTrans String le := ⟨fun _ _ _ => le_trans⟩
  have : Std.Total le := ⟨fun _ _ => le_total _ _⟩
  refine List.Perm.eq_of_pairwise ?_ (List.pairwise_insertionSort le _)
    (List.pairwise_insertionSort le _)
    ((List.perm_insertionSort _ _).trans (h.trans (List.perm_insertionSort _ _).symm))
  exact fun x y _ _ hxy hyx => utf16Key_injective (le_antisymm hxy hyx)

/-- Sorted names depend on what the names are only. -/
theorem sortedNames_congr {a b : List String} (h : ∀ name, name ∈ a ↔ name ∈ b) :
    sortedNames a = sortedNames b := by
  have hdedup : a.dedup.Perm b.dedup :=
    (List.perm_ext_iff_of_nodup a.nodup_dedup b.nodup_dedup).mpr fun name => by simp [h]
  exact sort_utf16_eq_of_perm hdedup

@[simp] theorem sortedNames_sortedNames (names : List String) :
    sortedNames (sortedNames names) = sortedNames names :=
  sortedNames_congr fun _ => mem_sortedNames

/-! ## Hits -/

/-- A segment of a pulse, as a route counts it. -/
structure Hit where
  heardAt : Int
  payloadTypeName : String

def LiveRoutePulse.hit (pulse : LiveRoutePulse) : Hit := ⟨pulse.heardAt, pulse.payloadTypeName⟩

/-- The hits of one pulse on a route. -/
def LiveRoutePulse.hitsOn (pulse : LiveRoutePulse) (routeID : String) : List Hit :=
  (pulse.segments.filter fun segment => segment.routeID = routeID).map fun _ => pulse.hit

def hitsOn (routeID : String) (pulses : List LiveRoutePulse) : List Hit :=
  pulses.flatMap fun pulse => pulse.hitsOn routeID

@[simp] theorem hitsOn_nil (routeID : String) : hitsOn routeID [] = [] := rfl

@[simp] theorem hitsOn_cons (routeID : String) (pulse : LiveRoutePulse)
    (pulses : List LiveRoutePulse) :
    hitsOn routeID (pulse :: pulses) = pulse.hitsOn routeID ++ hitsOn routeID pulses := rfl

theorem hitsOn_append (routeID : String) (a b : List LiveRoutePulse) :
    hitsOn routeID (a ++ b) = hitsOn routeID a ++ hitsOn routeID b := List.flatMap_append

/-- A count, a latest time and payload type names are those of some hits. -/
structure Tallies (hits : List Hit) (count lastHeard : Int) (names : List String) : Prop where
  hit : hits ≠ []
  count_eq : count = hits.length
  last_mem : ∃ hit ∈ hits, hit.heardAt = lastHeard
  last_le : ∀ hit ∈ hits, hit.heardAt ≤ lastHeard
  mem_names : ∀ name, name ∈ names ↔ ∃ hit ∈ hits, hit.payloadTypeName = name

theorem Tallies.single (hit : Hit) :
    Tallies [hit] 1 hit.heardAt [hit.payloadTypeName] where
  hit := by simp
  count_eq := by simp
  last_mem := ⟨hit, by simp, rfl⟩
  last_le := by simp
  mem_names := by simp [eq_comm]

theorem Tallies.append {hits hits' : List Hit} {count count' last last' : Int}
    {names names' : List String} (h : Tallies hits count last names)
    (h' : Tallies hits' count' last' names') :
    Tallies (hits ++ hits') (count + count') (max last last') (names ++ names') where
  hit := by simp [h.hit]
  count_eq := by simp [h.count_eq, h'.count_eq]
  last_mem := by
    rcases le_total last last' with hle | hle
    · obtain ⟨hit, hmem, heq⟩ := h'.last_mem
      exact ⟨hit, List.mem_append_right _ hmem, by rw [heq, max_eq_right hle]⟩
    · obtain ⟨hit, hmem, heq⟩ := h.last_mem
      exact ⟨hit, List.mem_append_left _ hmem, by rw [heq, max_eq_left hle]⟩
  last_le := by
    intro hit hmem
    rcases List.mem_append.mp hmem with hmem | hmem
    · exact (h.last_le hit hmem).trans (le_max_left _ _)
    · exact (h'.last_le hit hmem).trans (le_max_right _ _)
  mem_names := by
    intro name
    rw [List.mem_append, h.mem_names, h'.mem_names]
    simp only [List.mem_append]
    constructor
    · rintro (⟨hit, hmem, heq⟩ | ⟨hit, hmem, heq⟩)
      · exact ⟨hit, Or.inl hmem, heq⟩
      · exact ⟨hit, Or.inr hmem, heq⟩
    · rintro ⟨hit, hmem | hmem, heq⟩
      · exact Or.inl ⟨hit, hmem, heq⟩
      · exact Or.inr ⟨hit, hmem, heq⟩

theorem Tallies.names {hits : List Hit} {count last : Int} {names names' : List String}
    (h : Tallies hits count last names) (hnames : ∀ name, name ∈ names' ↔ name ∈ names) :
    Tallies hits count last names' :=
  { h with mem_names := fun name => (hnames name).trans (h.mem_names name) }

/-- The hits determine what tallies them. -/
theorem Tallies.unique {hits : List Hit} {count count' last last' : Int}
    {names names' : List String} (h : Tallies hits count last names)
    (h' : Tallies hits count' last' names') :
    count = count' ∧ last = last' ∧ sortedNames names = sortedNames names' := by
  obtain ⟨hit, hmem, heq⟩ := h.last_mem
  obtain ⟨hit', hmem', heq'⟩ := h'.last_mem
  have hle := h'.last_le hit hmem
  have hle' := h.last_le hit' hmem'
  refine ⟨h.count_eq.trans h'.count_eq.symm, by omega, sortedNames_congr fun name => ?_⟩
  rw [h.mem_names, h'.mem_names]

/-! ## The touched routes of a batch -/

/-- What the map `touched` tells of a route. -/
def TouchedBy (hits : List Hit) : Option TouchedRoute → Prop
  | none => hits = []
  | some update => Tallies hits update.hits update.lastHeard update.payloadTypeNames

structure TouchedHold (touched : List TouchedRoute) (hits : String → List Hit) : Prop where
  nodup : (touched.map TouchedRoute.routeID).Nodup
  touchedBy : ∀ routeID, TouchedBy (hits routeID) (Keyed.get TouchedRoute.routeID routeID touched)

/-- The map `touched` as a table with counts. -/
def touchedCounting : Counting TouchedRoute String :=
  { key := TouchedRoute.routeID, count := TouchedRoute.hits }

def firstTouch (pulse : LiveRoutePulse) (segment : PublicRouteSegment) : TouchedRoute :=
  { segment, hits := 1, lastHeard := pulse.heardAt, payloadTypeNames := [pulse.payloadTypeName] }

theorem touchRoute_eq_bump (pulse : LiveRoutePulse) (touched : List TouchedRoute)
    (segment : PublicRouteSegment) :
    touchRoute pulse touched segment =
      touchedCounting.bump segment.routeID (TouchedRoute.hit pulse) (firstTouch pulse segment)
        touched := rfl

theorem TouchedHold.touchRoute {touched : List TouchedRoute} {hits : String → List Hit}
    (h : TouchedHold touched hits) (pulse : LiveRoutePulse) (segment : PublicRouteSegment) :
    TouchedHold (touchRoute pulse touched segment) fun routeID =>
      hits routeID ++ if segment.routeID = routeID then [pulse.hit] else [] := by
  have hmore : ∀ existing, touchedCounting.key existing = segment.routeID →
      touchedCounting.key (TouchedRoute.hit pulse existing) = segment.routeID := fun _ h => h
  have hnew : touchedCounting.key (firstTouch pulse segment) = segment.routeID := rfl
  rw [touchRoute_eq_bump]
  refine ⟨Counting.nodup_bump hmore hnew h.nodup, fun routeID => ?_⟩
  have hget := Counting.find_bump hmore hnew touched routeID
  have hold := h.touchedBy routeID
  unfold Keyed.get at hold ⊢
  rw [show (fun x : TouchedRoute => decide (x.routeID = routeID)) =
    fun x => decide (touchedCounting.key x = routeID) from rfl, hget]
  by_cases heq : segment.routeID = routeID
  · rw [if_pos heq, if_pos heq]
    subst heq
    revert hold
    show TouchedBy _ (touched.find? fun x => touchedCounting.key x = segment.routeID) → _
    cases touched.find? fun x => touchedCounting.key x = segment.routeID with
    | none =>
      intro hold
      rw [show hits segment.routeID = [] from hold]
      exact Tallies.single pulse.hit
    | some existing =>
      intro hold
      exact Tallies.append hold (Tallies.single pulse.hit)
  · rw [if_neg heq, if_neg heq, List.append_nil]
    exact hold

theorem TouchedHold.segments {touched : List TouchedRoute} {hits : String → List Hit}
    (h : TouchedHold touched hits) (pulse : LiveRoutePulse) (segments : List PublicRouteSegment) :
    TouchedHold (segments.foldl (Web.touchRoute pulse) touched) fun routeID =>
      hits routeID ++
        (segments.filter fun segment => segment.routeID = routeID).map fun _ => pulse.hit := by
  induction segments generalizing touched hits with
  | nil => simpa using h
  | cons segment segments ih =>
    have hrest := ih (h.touchRoute pulse segment)
    refine ⟨hrest.nodup, fun routeID => ?_⟩
    have hby := hrest.touchedBy routeID
    by_cases heq : segment.routeID = routeID <;> simpa [heq] using hby

theorem TouchedHold.pulses {touched : List TouchedRoute} {hits : String → List Hit}
    (h : TouchedHold touched hits) (pulses : List LiveRoutePulse) :
    TouchedHold
      (pulses.foldl (fun touched pulse => pulse.segments.foldl (Web.touchRoute pulse) touched)
        touched)
      fun routeID => hits routeID ++ Web.hitsOn routeID pulses := by
  induction pulses generalizing touched hits with
  | nil => simpa using h
  | cons pulse pulses ih =>
    have hrest := ih (h.segments pulse pulse.segments)
    refine ⟨hrest.nodup, fun routeID => ?_⟩
    have hby := hrest.touchedBy routeID
    rwa [List.append_assoc] at hby

/-- The map `touched` tells the hits of the pulses. -/
theorem touchedHold_touchedRoutes (pulses : List LiveRoutePulse) :
    TouchedHold (touchedRoutes pulses) fun routeID => hitsOn routeID pulses := by
  have hnone : TouchedHold [] fun _ => [] := ⟨List.nodup_nil, fun _ => rfl⟩
  exact hnone.pulses pulses

/-! ## Bringing pulses into the route list -/

section Known

variable {routes : List PublicRoute} {routeIndex : String → Option Nat} (maxBefore : Int)

theorem knownRoute_eq_none_iff (h : Keyed.Indexes PublicRoute.id routeIndex routes)
    (update : TouchedRoute) :
    knownRoute routes routeIndex update = none ↔
      Keyed.get PublicRoute.id update.routeID routes = none := by
  rw [h.get_eq, knownRoute]
  cases routeIndex update.routeID with
  | none => simp
  | some index => cases hroute : routes[index]? <;> simp [hroute]

theorem knownRoute_eq_some {update : TouchedRoute} {index : Nat} {route : PublicRoute}
    (h : knownRoute routes routeIndex update = some (index, route)) :
    routeIndex update.routeID = some index ∧ routes[index]? = some route := by
  obtain ⟨place, hplace, hroute⟩ := Option.bind_eq_some_iff.mp h
  obtain ⟨found, hfound, heq⟩ := Option.map_eq_some_iff.mp hroute
  cases heq
  exact ⟨hplace, hfound⟩

/-- The first loop changes the known routes and finds each of them as it was before. -/
theorem foldl_updateKnownRoute (hroutes : Keyed.Indexes PublicRoute.id routeIndex routes)
    {touched : List TouchedRoute} (hnodup : (touched.map TouchedRoute.routeID).Nodup)
    (batch : RouteBatchUpdate) (hbatch : Keyed.Indexes PublicRoute.id routeIndex batch.routes)
    (hsame : ∀ update ∈ touched, Keyed.get PublicRoute.id update.routeID batch.routes =
      Keyed.get PublicRoute.id update.routeID routes) :
    let after := touched.foldl (updateKnownRoute routes routeIndex maxBefore) batch
    after.routeIndex = batch.routeIndex ∧
      Keyed.Indexes PublicRoute.id routeIndex after.routes ∧
      ∀ routeID, Keyed.get PublicRoute.id routeID after.routes =
        match Keyed.get TouchedRoute.routeID routeID touched with
        | none => Keyed.get PublicRoute.id routeID batch.routes
        | some update =>
          (Keyed.get PublicRoute.id routeID batch.routes).map (update.addTo maxBefore) := by
  induction touched generalizing batch with
  | nil => exact ⟨rfl, hbatch, fun _ => rfl⟩
  | cons update touched ih =>
    rw [List.map_cons, List.nodup_cons] at hnodup
    have hother : ∀ later ∈ touched, later.routeID ≠ update.routeID := fun later hlater heq =>
      hnodup.1 (heq ▸ List.mem_map_of_mem hlater)
    rw [List.foldl_cons]
    cases hknown : knownRoute routes routeIndex update with
    | none =>
      have hstep : updateKnownRoute routes routeIndex maxBefore batch update = batch := by
        rw [updateKnownRoute, hknown]
      rw [hstep]
      obtain ⟨hindex, hindexes, hget⟩ :=
        ih hnodup.2 batch hbatch fun later hlater => hsame later (List.mem_cons_of_mem _ hlater)
      refine ⟨hindex, hindexes, fun routeID => ?_⟩
      rw [hget, Keyed.get_cons]
      by_cases heq : update.routeID = routeID
      · have hnone : Keyed.get PublicRoute.id routeID batch.routes = none := by
          rw [← heq, hsame update List.mem_cons_self]
          exact (knownRoute_eq_none_iff hroutes update).mp hknown
        rw [if_pos heq, hnone]
        cases Keyed.get TouchedRoute.routeID routeID touched <;> rfl
      · rw [if_neg heq]
    | some place =>
      obtain ⟨index, route⟩ := place
      obtain ⟨hplace, hroute⟩ := knownRoute_eq_some hknown
      obtain ⟨found, hfound, hid⟩ := (hroutes _ _).mp hplace
      rw [hroute] at hfound
      cases hfound
      have hnow : batch.routes[index]? = some route := by
        obtain ⟨now, hnow, hnowID⟩ := (hbatch _ _).mp hplace
        have hgetNow := hbatch.get_eq_some hplace hnow
        rw [hsame update List.mem_cons_self, hroutes.get_eq_some hplace hroute] at hgetNow
        cases hgetNow
        exact hnow
      obtain ⟨hset, hgetSet⟩ := hbatch.set hnow (y := update.addTo maxBefore route) rfl
      have hstep : (updateKnownRoute routes routeIndex maxBefore batch update).routes =
          batch.routes.set index (update.addTo maxBefore route) := by
        rw [updateKnownRoute, hknown]
      have hstepIndex : (updateKnownRoute routes routeIndex maxBefore batch update).routeIndex =
          batch.routeIndex := by
        rw [updateKnownRoute, hknown]
      rw [← hstep] at hset hgetSet
      obtain ⟨hindex, hindexes, hget⟩ := ih hnodup.2 _ hset fun later hlater => by
        rw [hgetSet, hid, if_neg (hother later hlater).symm]
        exact hsame later (List.mem_cons_of_mem _ hlater)
      refine ⟨hindex.trans hstepIndex, hindexes, fun routeID => ?_⟩
      rw [hget, hgetSet, Keyed.get_cons, hid]
      by_cases heq : update.routeID = routeID
      · subst heq
        have hlater : Keyed.get TouchedRoute.routeID update.routeID touched = none :=
          Keyed.get_eq_none_iff.mpr hnodup.1
        rw [hlater, if_pos rfl, if_pos rfl, hbatch.get_eq_some hplace hnow]
        rfl
      · rw [if_neg heq, if_neg heq]

theorem routes_foldl_addNewRoute (left : List TouchedRoute) (batch : RouteBatchUpdate) :
    (left.foldl (addNewRoute maxBefore) batch).routes =
      batch.routes ++ left.map (TouchedRoute.newRoute maxBefore) := by
  induction left generalizing batch with
  | nil => simp
  | cons update left ih =>
    rw [List.foldl_cons, ih]
    simp [addNewRoute]

/-- The second loop appends a route for each update that is left. -/
theorem foldl_addNewRoute {left : List TouchedRoute}
    (hnodup : (left.map TouchedRoute.routeID).Nodup) {batch : RouteBatchUpdate}
    (hbatch : Keyed.Indexes PublicRoute.id batch.routeIndex batch.routes)
    (hnew : ∀ update ∈ left, batch.routeIndex update.routeID = none) :
    let after := left.foldl (addNewRoute maxBefore) batch
    Keyed.Indexes PublicRoute.id after.routeIndex after.routes ∧
      ∀ routeID, Keyed.get PublicRoute.id routeID after.routes =
        (Keyed.get PublicRoute.id routeID batch.routes).or
          ((Keyed.get TouchedRoute.routeID routeID left).map
            (TouchedRoute.newRoute maxBefore)) := by
  refine ⟨?_, fun routeID => ?_⟩
  · induction left generalizing batch with
    | nil => exact hbatch
    | cons update left ih =>
      rw [List.map_cons, List.nodup_cons] at hnodup
      have hother : ∀ later ∈ left, later.routeID ≠ update.routeID := fun later hlater heq =>
        hnodup.1 (heq ▸ List.mem_map_of_mem hlater)
      have happend : Keyed.Indexes PublicRoute.id
          (addNewRoute maxBefore batch update).routeIndex
          (addNewRoute maxBefore batch update).routes :=
        hbatch.append (x := update.newRoute maxBefore) (hnew update List.mem_cons_self)
      refine ih hnodup.2 happend fun later hlater => ?_
      show Function.update batch.routeIndex update.routeID _ later.routeID = none
      rw [Function.update_of_ne (hother later hlater)]
      exact hnew later (List.mem_cons_of_mem _ hlater)
  · have hkey : ∀ update : TouchedRoute, (update.newRoute maxBefore).id = update.routeID :=
      fun _ => rfl
    rw [routes_foldl_addNewRoute, Keyed.get_append, Keyed.get_map hkey]

end Known

/-- What a route record tells of the hits on its route. -/
def Counted (hits : List Hit) : Option PublicRoute → Prop
  | none => hits = []
  | some route => Tallies hits route.packetCount route.lastHeard route.payloadTypeNames

/-- Route records, each at its position, that tell some hits. -/
structure RoutesHold (routes : List PublicRoute) (routeIndex : String → Option Nat)
    (hits : String → List Hit) : Prop where
  indexes : Keyed.Indexes PublicRoute.id routeIndex routes
  counted : ∀ routeID, Counted (hits routeID) (Keyed.get PublicRoute.id routeID routes)
  sorted : ∀ routeID route, Keyed.get PublicRoute.id routeID routes = some route →
    sortedNames route.payloadTypeNames = route.payloadTypeNames

/-- Balancing the buckets changes nothing that is counted and sorts the names. -/
theorem get_normalizeRouteBuckets (routeID : String) (routes : List PublicRoute) :
    Keyed.get PublicRoute.id routeID (normalizeRouteBuckets routes) =
      (Keyed.get PublicRoute.id routeID routes).map fun route =>
        { route with
          frequencyBucket := frequencyBucket route.packetCount (maxRoutePacketCount routes)
          payloadTypeNames := sortedNames route.payloadTypeNames } := by
  unfold normalizeRouteBuckets
  refine Keyed.get_map ?_ routeID routes
  intro route
  rfl

theorem counted_normalizeRouteBuckets {hits : List Hit} {routeID : String}
    {routes : List PublicRoute} (h : Counted hits (Keyed.get PublicRoute.id routeID routes)) :
    Counted hits (Keyed.get PublicRoute.id routeID (normalizeRouteBuckets routes)) := by
  rw [get_normalizeRouteBuckets]
  revert h
  cases Keyed.get PublicRoute.id routeID routes with
  | none => exact id
  | some route => exact fun h => Tallies.names h fun _ => mem_sortedNames

theorem sorted_normalizeRouteBuckets {routeID : String} {routes : List PublicRoute}
    {route : PublicRoute}
    (h : Keyed.get PublicRoute.id routeID (normalizeRouteBuckets routes) = some route) :
    sortedNames route.payloadTypeNames = route.payloadTypeNames := by
  rw [get_normalizeRouteBuckets] at h
  obtain ⟨before, -, rfl⟩ := Option.map_eq_some_iff.mp h
  exact sortedNames_sortedNames _

theorem RoutesHold.normalizeRouteBuckets {routes : List PublicRoute}
    {routeIndex : String → Option Nat} {hits : String → List Hit}
    (h : RoutesHold routes routeIndex hits) :
    RoutesHold (normalizeRouteBuckets routes) routeIndex hits where
  indexes := h.indexes.map fun _ => rfl
  counted routeID := counted_normalizeRouteBuckets (h.counted routeID)
  sorted _ _ hget := sorted_normalizeRouteBuckets hget

/-- The record of a route after a batch. -/
def upsertedRoute (maxBefore : Int) :
    Option PublicRoute → Option TouchedRoute → Option PublicRoute
  | none, none => none
  | none, some update => some (update.newRoute maxBefore)
  | some route, none => some route
  | some route, some update => some (update.addTo maxBefore route)

theorem counted_upsertedRoute {hits new : List Hit} {maxBefore : Int}
    {route : Option PublicRoute} {update : Option TouchedRoute} (h : Counted hits route)
    (hnew : TouchedBy new update) :
    Counted (hits ++ new) (upsertedRoute maxBefore route update) := by
  match route, update with
  | none, none =>
    rw [show hits = [] from h, show new = [] from hnew]
    rfl
  | none, some update =>
    rw [show hits = [] from h]
    exact Tallies.names hnew fun _ => mem_sortedNames
  | some route, none =>
    rw [show new = [] from hnew, List.append_nil]
    exact h
  | some route, some update =>
    exact Tallies.names (Tallies.append h hnew) fun _ => mem_sortedNames

/-- Accepted pulses add their hits to what the route records tell. -/
theorem RoutesHold.upsert {routes : List PublicRoute} {routeIndex : String → Option Nat}
    {hits : String → List Hit} (h : RoutesHold routes routeIndex hits) (maxPacketCount : Int)
    (pulses : List LiveRoutePulse) :
    RoutesHold (upsertPulseRoutesBatch routes routeIndex maxPacketCount pulses).routes
      (upsertPulseRoutesBatch routes routeIndex maxPacketCount pulses).routeIndex
      fun routeID => hits routeID ++ hitsOn routeID pulses := by
  have htouched := touchedHold_touchedRoutes pulses
  unfold upsertPulseRoutesBatch
  generalize touchedRoutes pulses = touched at htouched
  dsimp only
  split
  · rename_i hnone
    subst hnone
    have hempty : ∀ routeID, hitsOn routeID pulses = [] := htouched.touchedBy
    simpa [hempty] using h
  · generalize max 1 maxPacketCount = maxBefore
    obtain ⟨hindex, hknown, hgetKnown⟩ :=
      foldl_updateKnownRoute maxBefore h.indexes htouched.nodup
        { routes, routeIndex, maxPacketCount := maxBefore
          topologyChanged := false, visualChanged := false }
        h.indexes fun _ _ => rfl
    generalize touched.foldl (updateKnownRoute routes routeIndex maxBefore) _ = known
      at hindex hknown hgetKnown ⊢
    have hleft : (touched.filter fun update => (knownRoute routes routeIndex update).isNone) =
        touched.filter fun update =>
          (Keyed.get PublicRoute.id update.routeID routes).isNone := by
      refine List.filter_congr fun update _ => ?_
      rw [Bool.eq_iff_iff, Option.isNone_iff_eq_none, Option.isNone_iff_eq_none]
      exact knownRoute_eq_none_iff h.indexes update
    rw [hleft]
    have hgetLeft : ∀ routeID, Keyed.get TouchedRoute.routeID routeID
        (touched.filter fun update =>
          (Keyed.get PublicRoute.id update.routeID routes).isNone) =
        if (Keyed.get PublicRoute.id routeID routes).isNone = true then
          Keyed.get TouchedRoute.routeID routeID touched
        else none := fun routeID =>
      Keyed.get_filter_key (fun id => (Keyed.get PublicRoute.id id routes).isNone) routeID touched
    have hnodup : ((touched.filter fun update =>
        (Keyed.get PublicRoute.id update.routeID routes).isNone).map
          TouchedRoute.routeID).Nodup :=
      htouched.nodup.sublist (List.filter_sublist.map _)
    have hfresh : ∀ update ∈ touched.filter fun update =>
        (Keyed.get PublicRoute.id update.routeID routes).isNone,
        known.routeIndex update.routeID = none := by
      intro update hmem
      rw [hindex]
      exact h.indexes.place_eq_none.mpr
        (Option.isNone_iff_eq_none.mp (List.mem_filter.mp hmem).2)
    obtain ⟨hindexes, hget⟩ := foldl_addNewRoute maxBefore hnodup
      (by rw [hindex]; exact hknown) hfresh
    generalize (touched.filter _).foldl (addNewRoute maxBefore) known = batch
      at hindexes hget ⊢
    have hroute : ∀ routeID, Keyed.get PublicRoute.id routeID batch.routes =
        upsertedRoute maxBefore (Keyed.get PublicRoute.id routeID routes)
          (Keyed.get TouchedRoute.routeID routeID touched) := by
      intro routeID
      rw [hget, hgetKnown, hgetLeft]
      cases Keyed.get PublicRoute.id routeID routes <;>
        cases Keyed.get TouchedRoute.routeID routeID touched <;> rfl
    have hbatch : RoutesHold batch.routes batch.routeIndex
        fun routeID => hits routeID ++ hitsOn routeID pulses := by
      refine ⟨hindexes, fun routeID => ?_, fun routeID route hfound => ?_⟩
      · rw [hroute]
        exact counted_upsertedRoute (h.counted routeID) (htouched.touchedBy routeID)
      · rw [hroute] at hfound
        have hsorted := h.sorted routeID
        revert hfound hsorted
        cases Keyed.get PublicRoute.id routeID routes <;>
          cases Keyed.get TouchedRoute.routeID routeID touched
        · rintro ⟨⟩
        · rintro ⟨⟩ -
          exact sortedNames_sortedNames _
        · rintro ⟨⟩ hsorted
          exact hsorted route rfl
        · rintro ⟨⟩ -
          exact sortedNames_sortedNames _
    split
    · exact hbatch.normalizeRouteBuckets
    · exact hbatch

/-! ## Sequences -/

theorem mem_of_mem_takeLast {α : Type} {n : Nat} {x : α} {items : List α}
    (h : x ∈ takeLast n items) : x ∈ items :=
  List.mem_of_mem_drop h

section Frames

variable (state : AppState) (seq : Option Int) (message : LiveMessage)

/-- `withLatestSeq` writes the cursor and its copy in the statistics. -/
theorem withLatestSeq_frame :
    (withLatestSeq state seq).nodes = state.nodes ∧
      (withLatestSeq state seq).routes = state.routes ∧
      (withLatestSeq state seq).routeIndex = state.routeIndex ∧
      (withLatestSeq state seq).activity = state.activity ∧
      (withLatestSeq state seq).pulses = state.pulses ∧
      (withLatestSeq state seq).routeMaxPacketCount = state.routeMaxPacketCount ∧
      (withLatestSeq state seq).seenSeqs = state.seenSeqs := by
  unfold withLatestSeq
  split
  · exact ⟨rfl, rfl, rfl, rfl, rfl, rfl, rfl⟩
  · split <;> exact ⟨rfl, rfl, rfl, rfl, rfl, rfl, rfl⟩

/-- `rememberSeq` writes the list of seen sequences. -/
theorem rememberSeq_frame :
    (rememberSeq state seq).nodes = state.nodes ∧
      (rememberSeq state seq).routes = state.routes ∧
      (rememberSeq state seq).routeIndex = state.routeIndex ∧
      (rememberSeq state seq).activity = state.activity ∧
      (rememberSeq state seq).pulses = state.pulses ∧
      (rememberSeq state seq).routeMaxPacketCount = state.routeMaxPacketCount := by
  unfold rememberSeq
  split
  · exact ⟨rfl, rfl, rfl, rfl, rfl, rfl⟩
  · split <;> exact ⟨rfl, rfl, rfl, rfl, rfl, rfl⟩

theorem mem_seenSeqs_rememberSeq {s : Int} (h : s ∈ (rememberSeq state seq).seenSeqs) :
    s ∈ state.seenSeqs ∨ seq = some s := by
  unfold rememberSeq at h
  split at h
  · exact Or.inl h
  · split at h
    · exact Or.inl h
    · dsimp only at h
      rcases List.mem_append.mp (mem_of_mem_takeLast h) with h | h
      · exact Or.inl h
      · exact Or.inr (by rw [List.mem_singleton.mp h])

@[simp] theorem mark_nodes : (state.mark message).nodes = state.nodes :=
  (rememberSeq_frame _ _).1.trans (withLatestSeq_frame _ _).1

@[simp] theorem mark_routes : (state.mark message).routes = state.routes :=
  (rememberSeq_frame _ _).2.1.trans (withLatestSeq_frame _ _).2.1

@[simp] theorem mark_routeIndex : (state.mark message).routeIndex = state.routeIndex :=
  (rememberSeq_frame _ _).2.2.1.trans (withLatestSeq_frame _ _).2.2.1

@[simp] theorem mark_pulses : (state.mark message).pulses = state.pulses :=
  (rememberSeq_frame _ _).2.2.2.2.1.trans (withLatestSeq_frame _ _).2.2.2.2.1

@[simp] theorem mark_routeMaxPacketCount :
    (state.mark message).routeMaxPacketCount = state.routeMaxPacketCount :=
  (rememberSeq_frame _ _).2.2.2.2.2.trans (withLatestSeq_frame _ _).2.2.2.2.2.1

theorem mem_seenSeqs_mark {s : Int} (h : s ∈ (state.mark message).seenSeqs) :
    s ∈ state.seenSeqs ∨ message.seq = some s := by
  rw [← (withLatestSeq_frame state
    (message.latestSeq <|> message.seq <|> some state.latestSeq)).2.2.2.2.2.2]
  exact mem_seenSeqs_rememberSeq _ _ h

theorem hasSeen_eq_false (h : ∀ s, message.seq = some s → s ∉ state.seenSeqs) :
    state.hasSeen message = false := by
  unfold AppState.hasSeen
  split
  · rfl
  · rename_i s hs
    simp [h s hs]

end Frames

/-! ## Runs of durable events -/

/-- The node of a `nodeUpdate` event. -/
def LiveMessage.node? (message : LiveMessage) : Option PublicNode :=
  match message.data with
  | some (.nodeUpdate node) => some node
  | _ => none

/-- The pulse of a `routePulse` event. -/
def LiveMessage.pulse? (message : LiveMessage) : Option LiveRoutePulse :=
  match message.data with
  | some (.routePulse pulse) => some pulse
  | _ => none

def pulsesOf (messages : List LiveMessage) : List LiveRoutePulse :=
  messages.filterMap LiveMessage.pulse?

/-- The version of a node that the latest of some events carries. -/
def latestNode (id : String) (messages : List LiveMessage) : Option PublicNode :=
  Keyed.get PublicNode.id id (messages.filterMap LiveMessage.node?).reverse

theorem latestNode_append (id : String) (a b : List LiveMessage) :
    latestNode id (a ++ b) = (latestNode id b).or (latestNode id a) := by
  unfold latestNode
  rw [List.filterMap_append, List.reverse_append, Keyed.get_append]

theorem pulsesOf_append (a b : List LiveMessage) : pulsesOf (a ++ b) = pulsesOf a ++ pulsesOf b :=
  List.filterMap_append

/-- Envelopes of stored events in the order of their sequences; the server stores an event
once, under its dedupe key. -/
structure DurableRun (messages : List LiveMessage) : Prop where
  event : ∀ message ∈ messages, message.type = .event ∧ ∃ seq, message.seq = some seq ∧ 0 < seq
  ordered : messages.Pairwise fun a b => a.seq.getD 0 < b.seq.getD 0
  once : ((pulsesOf messages).map fun pulse => pulse.id).Nodup

/-- The state has not taken in any of the events. -/
structure Unapplied (state : AppState) (messages : List LiveMessage) : Prop where
  seqs : ∀ message ∈ messages, ∀ seq, message.seq = some seq → seq ∉ state.seenSeqs
  pulses : ∀ pulse ∈ pulsesOf messages, pulse.id ∉ state.pulses.map fun known => known.id

/-- What taking in events comes to. -/
structure Applied (state : AppState) (messages : List LiveMessage) (after : AppState) :
    Prop where
  nodes : ∀ id, Keyed.get PublicNode.id id after.nodes =
    (latestNode id messages).or (Keyed.get PublicNode.id id state.nodes)
  routes : ∀ hits, RoutesHold state.routes state.routeIndex hits →
    RoutesHold after.routes after.routeIndex fun routeID =>
      hits routeID ++ hitsOn routeID (pulsesOf messages)
  seen : ∀ seq ∈ after.seenSeqs, seq ∈ state.seenSeqs ∨ ∃ message ∈ messages,
    message.seq = some seq
  pulses : ∀ id ∈ after.pulses.map fun pulse => pulse.id,
    id ∈ (state.pulses.map fun pulse => pulse.id) ∨
      id ∈ (pulsesOf messages).map fun pulse => pulse.id

theorem DurableRun.append_left {a b : List LiveMessage} (h : DurableRun (a ++ b)) :
    DurableRun a where
  event message hmem := h.event message (List.mem_append_left _ hmem)
  ordered := (List.pairwise_append.mp h.ordered).1
  once := by
    have honce := h.once
    rw [pulsesOf_append, List.map_append] at honce
    exact honce.of_append_left

theorem DurableRun.append_right {a b : List LiveMessage} (h : DurableRun (a ++ b)) :
    DurableRun b where
  event message hmem := h.event message (List.mem_append_right _ hmem)
  ordered := (List.pairwise_append.mp h.ordered).2.1
  once := by
    have honce := h.once
    rw [pulsesOf_append, List.map_append] at honce
    exact honce.of_append_right

/-- After the first part of a run the rest of it is still unapplied. -/
theorem Unapplied.rest {state after : AppState} {a b : List LiveMessage}
    (h : Unapplied state (a ++ b)) (hrun : DurableRun (a ++ b)) (happlied : Applied state a after) :
    Unapplied after b where
  seqs message hmem seq hseq hseen := by
    rcases happlied.seen seq hseen with hseen | ⟨earlier, hearlier, hsame⟩
    · exact h.seqs message (List.mem_append_right _ hmem) seq hseq hseen
    · have hlt := (List.pairwise_append.mp hrun.ordered).2.2 earlier hearlier message hmem
      rw [hsame, hseq] at hlt
      exact lt_irrefl _ hlt
  pulses pulse hmem hknown := by
    rcases happlied.pulses _ hknown with hknown | hearlier
    · exact h.pulses pulse (by rw [pulsesOf_append]; exact List.mem_append_right _ hmem) hknown
    · have honce := hrun.once
      rw [pulsesOf_append, List.map_append] at honce
      exact (List.nodup_append.mp honce).2.2 _ hearlier _ (List.mem_map_of_mem hmem) rfl

theorem Applied.nil (state : AppState) : Applied state [] state where
  nodes _ := rfl
  routes hits h := by simpa [pulsesOf] using h
  seen _ h := Or.inl h
  pulses _ h := Or.inl h

theorem Applied.trans {s s' s'' : AppState} {a b : List LiveMessage} (h : Applied s a s')
    (h' : Applied s' b s'') : Applied s (a ++ b) s'' where
  nodes id := by rw [h'.nodes, h.nodes, latestNode_append, Option.or_assoc]
  routes hits hold := by
    have hboth := h'.routes _ (h.routes hits hold)
    refine ⟨hboth.indexes, fun routeID => ?_, hboth.sorted⟩
    have hcounted := hboth.counted routeID
    rwa [List.append_assoc, ← hitsOn_append, ← pulsesOf_append] at hcounted
  seen seq hseq := by
    rcases h'.seen seq hseq with hseq | ⟨message, hmem, hsame⟩
    · exact (h.seen seq hseq).imp_right fun ⟨message, hmem, hsame⟩ =>
        ⟨message, List.mem_append_left _ hmem, hsame⟩
    · exact Or.inr ⟨message, List.mem_append_right _ hmem, hsame⟩
  pulses id hid := by
    rw [pulsesOf_append, List.map_append, List.mem_append]
    rcases h'.pulses id hid with hid | hid
    · exact (h.pulses id hid).imp_right Or.inl
    · exact Or.inr (Or.inr hid)

/-! ## One batch -/

/-- The loop of `applyPublicEnvelopes` after some envelopes of a run. -/
structure Looped (state : AppState) (messages : List LiveMessage) (loop : EnvelopeLoop) :
    Prop where
  nodes : ∀ id, Keyed.get PublicNode.id id loop.next.nodes =
    (latestNode id messages).or (Keyed.get PublicNode.id id state.nodes)
  routes : loop.next.routes = state.routes
  routeIndex : loop.next.routeIndex = state.routeIndex
  accepted : ∀ routeID, hitsOn routeID loop.acceptedPulses = hitsOn routeID (pulsesOf messages)
  seen : ∀ seq ∈ loop.next.seenSeqs, seq ∈ state.seenSeqs ∨ ∃ message ∈ messages,
    message.seq = some seq
  pulses : ∀ id ∈ loop.next.pulses.map fun pulse => pulse.id,
    id ∈ (state.pulses.map fun pulse => pulse.id) ∨
      id ∈ (pulsesOf messages).map fun pulse => pulse.id
  pulseIDs : ∀ id ∈ loop.pulseIDs, id ∈ (state.pulses.map fun pulse => pulse.id) ∨
    id ∈ (pulsesOf messages).map fun pulse => pulse.id

section Step

variable {state : AppState} {messages : List LiveMessage} {message : LiveMessage}
  {loop : EnvelopeLoop} (animate : Bool)

theorem Looped.unseen (h : Looped state messages loop)
    (hrun : DurableRun (messages ++ [message])) (hfresh : Unapplied state (messages ++ [message])) :
    loop.next.hasSeen message = false := by
  refine hasSeen_eq_false _ _ fun seq hseq hseen => ?_
  rcases h.seen seq hseen with hseen | ⟨earlier, hearlier, hsame⟩
  · exact hfresh.seqs message (by simp) seq hseq hseen
  · have hlt := (List.pairwise_append.mp hrun.ordered).2.2 earlier hearlier message (by simp)
    rw [hsame, hseq] at hlt
    exact lt_irrefl _ hlt

/-- An event that is no pulse. -/
theorem Looped.nonRoute (h : Looped state messages loop)
    (hrun : DurableRun (messages ++ [message])) (hfresh : Unapplied state (messages ++ [message]))
    (hpulse : message.pulse? = none) :
    Looped state (messages ++ [message])
      { loop with next := applyNonRouteEnvelope loop.next message animate } := by
  have hpulses : pulsesOf (messages ++ [message]) = pulsesOf messages := by
    simp [pulsesOf, hpulse]
  have hlatest : ∀ id, latestNode id (messages ++ [message]) =
      (latestNode id [message]).or (latestNode id messages) := fun id =>
    latestNode_append id messages [message]
  have hunseen := h.unseen hrun hfresh
  have htype := (hrun.event message (by simp)).1
  unfold applyNonRouteEnvelope
  rw [if_neg (fun hne => hne htype), hunseen]
  have hseen : ∀ {next : AppState}, next.seenSeqs = loop.next.seenSeqs →
      ∀ seq ∈ (next.mark message).seenSeqs, seq ∈ state.seenSeqs ∨
        ∃ earlier ∈ messages ++ [message], earlier.seq = some seq := by
    intro next hsame seq hmem
    rcases mem_seenSeqs_mark _ _ hmem with hmem | hseq
    · rw [hsame] at hmem
      exact (h.seen seq hmem).imp_right fun ⟨earlier, hearlier, hseq⟩ =>
        ⟨earlier, List.mem_append_left _ hearlier, hseq⟩
    · exact Or.inr ⟨message, by simp, hseq⟩
  cases hdata : message.data with
  | none =>
    have hnode : ∀ id, latestNode id [message] = none := fun id => by
      simp [latestNode, LiveMessage.node?, hdata]
    refine ⟨fun id => ?_, h.routes, h.routeIndex, ?_, fun seq hmem => ?_, ?_, ?_⟩
    · rw [hlatest, hnode]
      exact h.nodes id
    · simpa [hpulses] using h.accepted
    · exact (h.seen seq hmem).imp_right fun ⟨earlier, hearlier, hseq⟩ =>
        ⟨earlier, List.mem_append_left _ hearlier, hseq⟩
    · simpa [hpulses] using h.pulses
    · simpa [hpulses] using h.pulseIDs
  | some data =>
    cases data with
    | nodeUpdate node =>
      have hnode : ∀ id, latestNode id [message] =
          if node.id = id then some node else none := fun id => by
        simp [latestNode, LiveMessage.node?, hdata, Keyed.get_cons]
      refine ⟨fun id => ?_, by simp [h.routes], by simp [h.routeIndex], ?_, hseen rfl, ?_, ?_⟩
      · simp only [Bool.false_eq_true, if_false, mark_nodes]
        rw [Keyed.get_putFront, hlatest, hnode, h.nodes]
        by_cases heq : node.id = id
        · rw [if_pos heq, if_pos heq]
          rfl
        · rw [if_neg heq, if_neg heq]
          rfl
      · simpa [hpulses] using h.accepted
      · simpa [hpulses] using h.pulses
      · simpa [hpulses] using h.pulseIDs
    | activity activity =>
      have hnode : ∀ id, latestNode id [message] = none := fun id => by
        simp [latestNode, LiveMessage.node?, hdata]
      simp only [Bool.false_eq_true, if_false]
      split
      · refine ⟨fun id => ?_, by simp [h.routes], by simp [h.routeIndex], ?_, hseen rfl, ?_, ?_⟩
        · rw [hlatest, hnode]
          simpa using h.nodes id
        · simpa [hpulses] using h.accepted
        · simpa [hpulses] using h.pulses
        · simpa [hpulses] using h.pulseIDs
      · refine ⟨fun id => ?_, by simp [h.routes], by simp [h.routeIndex], ?_, hseen rfl, ?_, ?_⟩
        · rw [hlatest, hnode]
          simpa using h.nodes id
        · simpa [hpulses] using h.accepted
        · simpa [hpulses] using h.pulses
        · simpa [hpulses] using h.pulseIDs
    | routePulse pulse =>
      rw [LiveMessage.pulse?, hdata] at hpulse
      cases hpulse

/-- A pulse. -/
theorem Looped.route (h : Looped state messages loop)
    (hrun : DurableRun (messages ++ [message])) (hfresh : Unapplied state (messages ++ [message]))
    {data : LiveRoutePulse} (hpulse : message.pulse? = some data) :
    Looped state (messages ++ [message]) (loop.applyPulse message animate data) := by
  have hpulses : pulsesOf (messages ++ [message]) = pulsesOf messages ++ [data] := by
    simp [pulsesOf, hpulse]
  have hnode : ∀ id, latestNode id (messages ++ [message]) = latestNode id messages := by
    intro id
    have hnone : message.node? = none := by
      unfold LiveMessage.pulse? at hpulse
      unfold LiveMessage.node?
      cases hdata : message.data with
      | none => rfl
      | some item => cases item <;> simp_all
    simp [latestNode, hnone]
  have hnew : data.id ∉ loop.pulseIDs := by
    intro hmem
    rcases h.pulseIDs _ hmem with hmem | hmem
    · exact hfresh.pulses data (by rw [hpulses]; simp) hmem
    · have honce := hrun.once
      rw [hpulses, List.map_append] at honce
      exact (List.nodup_append.mp honce).2.2 _ hmem _ (by simp) rfl
  have hids : ∀ id, id ∈ (state.pulses.map fun pulse => pulse.id) ∨
      id ∈ ((pulsesOf messages).map fun pulse => pulse.id) →
      id ∈ (state.pulses.map fun pulse => pulse.id) ∨
        id ∈ (pulsesOf (messages ++ [message])).map fun pulse => pulse.id := by
    intro id hid
    rw [hpulses, List.map_append]
    exact hid.imp_right (List.mem_append_left _)
  have hown : data.id ∈ (pulsesOf (messages ++ [message])).map fun pulse => pulse.id := by
    simp [hpulses]
  unfold EnvelopeLoop.applyPulse
  rw [h.unseen hrun hfresh]
  simp only [Bool.false_eq_true, if_false]
  rw [if_neg (show ¬ (data.withEnvelopeTiming message).id ∈ loop.pulseIDs from hnew)]
  refine ⟨fun id => ?_, by simp [h.routes], by simp [h.routeIndex], fun routeID => ?_,
    fun seq hmem => ?_, fun id hid => ?_, fun id hid => ?_⟩
  · rw [hnode]
    simpa using h.nodes id
  · rw [hpulses, hitsOn_append, hitsOn_append, h.accepted]
    rfl
  · rcases mem_seenSeqs_mark _ _ hmem with hmem | hseq
    · rcases h.seen seq hmem with hstate | ⟨earlier, hearlier, hseq⟩
      · exact .inl hstate
      · exact .inr ⟨earlier, List.mem_append_left _ hearlier, hseq⟩
    · exact Or.inr ⟨message, by simp, hseq⟩
  · rw [mark_pulses] at hid
    dsimp only at hid
    split at hid
    · obtain ⟨pulse, hmem, rfl⟩ := List.mem_map.mp hid
      rcases List.mem_cons.mp (List.mem_of_mem_take hmem) with rfl | hmem
      · exact Or.inr hown
      · exact hids _ (h.pulses _ (List.mem_map_of_mem hmem))
    · exact hids _ (h.pulses _ hid)
  · rcases List.mem_cons.mp hid with rfl | hid
    · exact Or.inr hown
    · exact hids _ (h.pulseIDs _ hid)

/-- One round of the loop. -/
theorem Looped.step (h : Looped state messages loop)
    (hrun : DurableRun (messages ++ [message])) (hfresh : Unapplied state (messages ++ [message])) :
    Looped state (messages ++ [message]) (loop.step animate message) := by
  have htype := (hrun.event message (by simp)).1
  unfold EnvelopeLoop.step
  rw [htype]
  cases hdata : message.data with
  | none => exact h.nonRoute animate hrun hfresh (by rw [LiveMessage.pulse?, hdata])
  | some data =>
    cases data with
    | nodeUpdate node => exact h.nonRoute animate hrun hfresh (by rw [LiveMessage.pulse?, hdata])
    | activity activity => exact h.nonRoute animate hrun hfresh (by rw [LiveMessage.pulse?, hdata])
    | routePulse pulse => exact h.route animate hrun hfresh (by rw [LiveMessage.pulse?, hdata])

theorem Unapplied.append_left {a b : List LiveMessage} (h : Unapplied state (a ++ b)) :
    Unapplied state a where
  seqs message hmem := h.seqs message (List.mem_append_left _ hmem)
  pulses pulse hmem := h.pulses pulse (by rw [pulsesOf_append]; exact List.mem_append_left _ hmem)

theorem looped_foldl (hrun : DurableRun messages) (hfresh : Unapplied state messages) :
    Looped state messages (messages.foldl (EnvelopeLoop.step animate)
      { next := state, pulseIDs := state.pulses.map fun pulse => pulse.id, acceptedPulses := [] }) := by
  induction messages using List.reverseRecOn with
  | nil => exact ⟨fun _ => rfl, rfl, rfl, fun _ => rfl, fun _ => Or.inl, fun _ => Or.inl,
      fun _ => Or.inl⟩
  | append_singleton messages message ih =>
    rw [List.foldl_append]
    exact (ih hrun.append_left hfresh.append_left).step animate hrun hfresh

/-- A batch of fresh durable events is applied. -/
theorem applied_applyPublicEnvelopes (hrun : DurableRun messages)
    (hfresh : Unapplied state messages) :
    Applied state messages (applyPublicEnvelopes state messages animate) := by
  have h := looped_foldl animate hrun hfresh
  unfold applyPublicEnvelopes
  generalize messages.foldl (EnvelopeLoop.step animate) _ = loop at h ⊢
  dsimp only
  split
  · rename_i hnone
    refine ⟨h.nodes, fun hits hold => ?_, h.seen, h.pulses⟩
    have hzero : ∀ routeID, hitsOn routeID (pulsesOf messages) = [] := fun routeID => by
      rw [← h.accepted, hnone]
      rfl
    rw [h.routes, h.routeIndex]
    simpa [hzero] using hold
  · refine ⟨h.nodes, fun hits hold => ?_, h.seen, h.pulses⟩
    rw [← h.routes, ← h.routeIndex] at hold
    have hupsert := hold.upsert loop.next.routeMaxPacketCount loop.acceptedPulses
    refine ⟨hupsert.indexes, fun routeID => ?_, hupsert.sorted⟩
    rw [← h.accepted]
    exact hupsert.counted routeID

end Step

/-! ## Runs of batches -/

/-- Batches in turn, each with its `animate`. -/
def applyBatches (state : AppState) (batches : List (Bool × List LiveMessage)) : AppState :=
  batches.foldl (fun state batch => applyPublicEnvelopes state batch.2 batch.1) state

/-- However a run of fresh durable events is cut into batches, it is applied. -/
theorem applied_applyBatches {batches : List (Bool × List LiveMessage)} {state : AppState}
    (hrun : DurableRun (batches.flatMap Prod.snd))
    (hfresh : Unapplied state (batches.flatMap Prod.snd)) :
    Applied state (batches.flatMap Prod.snd) (applyBatches state batches) := by
  induction batches generalizing state with
  | nil => exact Applied.nil state
  | cons batch batches ih =>
    rw [List.flatMap_cons] at hrun hfresh ⊢
    have hbatch := applied_applyPublicEnvelopes batch.1 hrun.append_left hfresh.append_left
    exact hbatch.trans (ih hrun.append_right (hfresh.rest hrun hbatch))

end CartoLive.Web
