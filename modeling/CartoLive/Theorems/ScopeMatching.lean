import CartoLive.Live.Hub

/-!
# What a subscription is sent

A `subscribe` message names regions, payload types and event types in three
lists. Matching knows a list that is omitted (nil) from one that is empty, but
normalisation turns both into an empty list, and an empty list matches nothing:
a client that omits a list is sent no event.
-/

namespace CartoLive.Theorems.ScopeMatching

open CartoLive.Go CartoLive.Live

/-! ## What a message asks for -/

/-- What a list names, in the form in which events are compared. -/
def named (list : Option (List String)) (upper : Bool) : List String :=
  ((list.getD []).map (scopeString · upper)).filter (· ≠ "")

/-- A list that is there and not empty has to name the value. -/
def ListAllows (list : Option (List String)) (value : String) (upper : Bool) : Prop :=
  list.getD [] ≠ [] → scopeString value upper ∈ named list upper

/-- The points of an event. -/
def eventPoints : PublicData → List (F64 × F64)
  | .node item => [(item.longitude, item.latitude)]
  | .activity item =>
    (item.observerLocation.map fun location => (location.lng, location.lat)).toList ++
      (item.messageAnchor.map fun anchor => (anchor.lng, anchor.lat)).toList
  | .pulse item => item.segments.flatMap fun segment =>
      [(segment.source.lng, segment.source.lat), (segment.target.lng, segment.target.lat)]

/-- The events that a message asks for. -/
structure Asked (scope : SubscriptionScope) (event : PublicEvent) : Prop where
  events : ListAllows scope.events event.type false
  regions : ListAllows scope.regions event.region true
  payloadTypes : ListAllows scope.payloadTypes event.payloadTypeName true
  message : scope.messageOnly = true → event.message = true
  bbox : validScopeBBox scope.bbox = true →
    ∃ point ∈ eventPoints event.data, pointInBBox point.1 point.2 scope.bbox = true

/-- A list is there and not empty. -/
def Given (list : Option (List String)) : Prop := list.getD [] ≠ []

/-- A list is there and not empty, but has only blanks. -/
def Blank (list : Option (List String)) (upper : Bool) : Prop :=
  list.getD [] ≠ [] ∧ named list upper = []

/-- No list is omitted or empty, or one has only blanks, so that no event is asked for. -/
def Spelled (scope : SubscriptionScope) : Prop :=
  (Given scope.events ∧ Given scope.regions ∧ Given scope.payloadTypes) ∨
    Blank scope.events false ∨ Blank scope.regions true ∨ Blank scope.payloadTypes true

/-! ## What the client is sent -/

theorem mem_normalizeScopeStringsFrom (upper : Bool) (out items : List String) (value : String) :
    value ∈ normalizeScopeStringsFrom upper out items ↔
      value ∈ out ∨ value ∈ (items.map (scopeString · upper)).filter (· ≠ "") := by
  induction items generalizing out with
  | nil => simp [normalizeScopeStringsFrom]
  | cons item items ih =>
    unfold normalizeScopeStringsFrom
    dsimp only
    rw [List.map_cons, List.filter_cons]
    by_cases hblank : scopeString item upper = ""
    · rw [if_pos (.inl hblank), if_neg (by simpa using hblank)]
      exact ih out
    have hkeep : decide (scopeString item upper ≠ "") = true := decide_eq_true hblank
    rw [if_pos hkeep, List.mem_cons]
    by_cases hseen : scopeString item upper ∈ out
    · rw [if_pos (.inr hseen), ih]
      constructor
      · exact fun h => h.imp_right .inr
      · rintro (h | rfl | h)
        · exact .inl h
        · exact .inl hseen
        · exact .inr h
    · rw [if_neg (not_or.mpr ⟨hblank, hseen⟩), ih, List.mem_append, List.mem_singleton, or_assoc]

/-- A normalised list matches what it names. -/
theorem scopeListMatches_normalize (list : Option (List String)) (value : String) (upper : Bool) :
    scopeListMatches (normalizeScopeStrings list upper) value upper = true ↔
      scopeString value upper ∈ named list upper := by
  unfold normalizeScopeStrings scopeListMatches named
  rw [List.contains_iff_mem, mem_normalizeScopeStringsFrom]
  simp only [List.not_mem_nil, false_or]

/-- An event that meets a box has a point in it. -/
theorem publicEventIntersectsBBox_iff (event : PublicEvent) {bbox : List F64}
    (hlength : bbox.length = 4) :
    publicEventIntersectsBBox event bbox = true ↔
      ∃ point ∈ eventPoints event.data, pointInBBox point.1 point.2 bbox = true := by
  unfold publicEventIntersectsBBox eventPoints
  cases event.data with
  | node item => simp
  | activity item =>
    dsimp only
    rw [hlength]
    cases item.observerLocation <;> cases item.messageAnchor <;> simp
  | pulse item =>
    dsimp only
    rw [hlength]
    simp only [bne_self_eq_false, Bool.or_false, List.any_eq_true, Bool.or_eq_true,
      List.mem_flatMap]
    constructor
    · rintro ⟨segment, hsegment, hin | hin⟩
      · exact ⟨_, ⟨segment, hsegment, List.mem_cons_self⟩, hin⟩
      · exact ⟨_, ⟨segment, hsegment, List.mem_cons_of_mem _ List.mem_cons_self⟩, hin⟩
    · rintro ⟨point, ⟨segment, hsegment, hpoint⟩, hin⟩
      rcases List.mem_pair.mp hpoint with rfl | rfl
      · exact ⟨segment, hsegment, .inl hin⟩
      · exact ⟨segment, hsegment, .inr hin⟩

theorem length_of_validScopeBBox {bbox : List F64} (h : validScopeBBox bbox = true) :
    bbox.length = 4 := by
  unfold validScopeBBox at h
  split at h
  · rfl
  · cases h

/-- What a client with a normalised scope is sent. -/
theorem clientMatches_normalize_iff (scope : SubscriptionScope) (event : PublicEvent) :
    clientMatchesPublicEvent (some (normalizeSubscriptionScope scope)) event = true ↔
      scopeString event.type false ∈ named scope.events false ∧
        scopeString event.region true ∈ named scope.regions true ∧
        scopeString event.payloadTypeName true ∈ named scope.payloadTypes true ∧
        (scope.messageOnly = true → event.message = true) ∧
        (validScopeBBox scope.bbox = true →
          ∃ point ∈ eventPoints event.data, pointInBBox point.1 point.2 scope.bbox = true) := by
  have hbox : ((if scope.bbox.length ≠ 4 ∨ validScopeBBox scope.bbox = false then []
        else scope.bbox).length != 4 ||
      publicEventIntersectsBBox event
        (if scope.bbox.length ≠ 4 ∨ validScopeBBox scope.bbox = false then [] else scope.bbox)) =
        true ↔ (validScopeBBox scope.bbox = true →
          ∃ point ∈ eventPoints event.data, pointInBBox point.1 point.2 scope.bbox = true) := by
    by_cases hvalid : validScopeBBox scope.bbox = true
    · have hlength := length_of_validScopeBBox hvalid
      rw [if_neg (by rw [hvalid, hlength]; simp), hlength, ← publicEventIntersectsBBox_iff event hlength]
      simp [hvalid]
    · rw [if_pos (.inr (by simpa using hvalid))]
      simp [hvalid]
  unfold clientMatchesPublicEvent normalizeSubscriptionScope
  simp only [Bool.and_eq_true, scopeListMatches_normalize, and_assoc]
  refine and_congr_right' (and_congr_right' (and_congr_right' (and_congr ?_ hbox)))
  cases scope.messageOnly <;> simp

/-- What a list names, an event can have. -/
theorem exists_allowed {list : Option (List String)} {upper : Bool} (h : ¬Blank list upper) :
    ∃ value, ListAllows list value upper := by
  by_cases hempty : list.getD [] = []
  · exact ⟨"", fun hne => absurd hempty hne⟩
  · obtain ⟨value, hvalue⟩ := List.exists_mem_of_ne_nil _ fun hnil => h ⟨hempty, hnil⟩
    refine ⟨value, fun _ => ?_⟩
    obtain ⟨item, -, rfl⟩ := List.mem_map.mp (List.mem_filter.mp hvalue).1
    have hform : scopeString (scopeString item upper) upper = scopeString item upper := by
      cases upper with
      | false => exact trimSpace_trimSpace item
      | true => exact upperTrim_upperTrim item
    rwa [hform]

/-- A node in the corner of a box. -/
def cornerNode (bbox : List F64) : PublicData :=
  .node
    { seq := 0, id := "", label := "", role := "", isObserver := false
      latitude := bbox.getD 1 .nan, longitude := bbox.getD 0 .nan, lastSeen := 0, firstSeen := 0
      iatasHeardIn := [], regionsHeardIn := [], activityCount := 0 }

theorem corner_inBBox {bbox : List F64} (h : validScopeBBox bbox = true) :
    ∃ point ∈ eventPoints (cornerNode bbox), pointInBBox point.1 point.2 bbox = true := by
  refine ⟨_, List.mem_singleton_self _, ?_⟩
  unfold validScopeBBox at h
  split at h
  · rename_i west south east north
    simp only [Bool.and_eq_true, F64.lt] at h
    obtain ⟨⟨⟨⟨⟨⟨hfinite, -⟩, -⟩, -⟩, -⟩, heast, -⟩, hnorth, -⟩ := h
    have hself : ∀ x : F64, (!x.isNaN && !x.isInf) = true → x.le x = true := by
      intro x hx
      cases x with
      | nan => cases hx
      | inf negative => cases hx
      | fin value => exact decide_eq_true (le_refl value)
    have hall := List.all_eq_true.mp hfinite
    have hwest := hself west (hall west (by simp))
    have hsouth := hself south (hall south (by simp))
    show (west.le west && west.le east && south.le south && south.le north) = true
    rw [hwest, heast, hsouth, hnorth]
    rfl
  · cases h

/-- An event that a message asks for, unless one of its lists has only blanks. -/
theorem exists_asked {scope : SubscriptionScope} (hevents : ¬Blank scope.events false)
    (hregions : ¬Blank scope.regions true) (hpayloads : ¬Blank scope.payloadTypes true) :
    ∃ event, Asked scope event := by
  obtain ⟨type, htype⟩ := exists_allowed hevents
  obtain ⟨region, hregion⟩ := exists_allowed hregions
  obtain ⟨payloadTypeName, hpayload⟩ := exists_allowed hpayloads
  exact
    ⟨{ dedupeKey := "", seq := 0, type, occurredAt := 0, receivedAt := 0, iata := "", region
       payloadTypeName, message := true, routeIDs := [], nodeIDs := []
       data := cornerNode scope.bbox },
      { events := htype
        regions := hregion
        payloadTypes := hpayload
        message := fun _ => rfl
        bbox := corner_inBBox }⟩

/-- A list that names a value is there. -/
theorem given_of_named {list : Option (List String)} {value : String} {upper : Bool}
    (h : value ∈ named list upper) : Given list := by
  intro hempty
  rw [named, hempty] at h
  cases h

/-- A client is sent what its message asks for exactly if the message spells out all three lists;
and whatever it is sent, the message asks for, in all three lists. -/
theorem scope_matches_iff (scope : SubscriptionScope) :
    ((∀ event, clientMatchesPublicEvent (some (normalizeSubscriptionScope scope)) event = true ↔
        Asked scope event) ↔ Spelled scope) ∧
      ∀ event, clientMatchesPublicEvent (some (normalizeSubscriptionScope scope)) event = true ↔
        Asked scope event ∧ Given scope.events ∧ Given scope.regions ∧ Given scope.payloadTypes := by
  have hmatches : ∀ event,
      clientMatchesPublicEvent (some (normalizeSubscriptionScope scope)) event = true ↔
        Asked scope event ∧ Given scope.events ∧ Given scope.regions ∧
          Given scope.payloadTypes := by
    intro event
    rw [clientMatches_normalize_iff]
    constructor
    · rintro ⟨hevents, hregions, hpayloads, hmessage, hbox⟩
      exact ⟨⟨fun _ => hevents, fun _ => hregions, fun _ => hpayloads, hmessage, hbox⟩,
        given_of_named hevents, given_of_named hregions, given_of_named hpayloads⟩
    · rintro ⟨hasked, hevents, hregions, hpayloads⟩
      exact ⟨hasked.events hevents, hasked.regions hregions, hasked.payloadTypes hpayloads,
        hasked.message, hasked.bbox⟩
  refine ⟨?_, hmatches⟩
  constructor
  · intro hall
    by_cases hblank : Blank scope.events false ∨ Blank scope.regions true ∨
        Blank scope.payloadTypes true
    · exact .inr hblank
    · obtain ⟨hevents, hrest⟩ := not_or.mp hblank
      obtain ⟨hregions, hpayloads⟩ := not_or.mp hrest
      obtain ⟨event, hasked⟩ := exists_asked hevents hregions hpayloads
      exact .inl ((hmatches event).mp ((hall event).mpr hasked)).2
  · rintro (hgiven | hblank) event
    · rw [hmatches]
      exact and_iff_left hgiven
    · -- an event has nothing that a list of blanks names
      have hnone : ¬Asked scope event := by
        intro hasked
        rcases hblank with ⟨hne, hnil⟩ | ⟨hne, hnil⟩ | ⟨hne, hnil⟩
        · have hin := hasked.events hne
          rw [hnil] at hin
          cases hin
        · have hin := hasked.regions hne
          rw [hnil] at hin
          cases hin
        · have hin := hasked.payloadTypes hne
          rw [hnil] at hin
          cases hin
      exact iff_of_false (fun h => hnone ((hmatches event).mp h).1) hnone

/-- A message that names a region and nothing else. -/
def regionOnly : SubscriptionScope :=
  { regions := some ["YKF"], payloadTypes := none, events := none, bbox := [], messageOnly := false }

theorem region_only_sent_nothing :
    ¬∀ scope event, clientMatchesPublicEvent (some (normalizeSubscriptionScope scope)) event = true ↔
      Asked scope event := by
  intro h
  have hasked : Asked regionOnly
      { dedupeKey := "", seq := 1, type := "nodeUpsert", occurredAt := 0, receivedAt := 0
        iata := "YKF", region := "YKF", payloadTypeName := "", message := false, routeIDs := []
        nodeIDs := [], data := cornerNode [] } :=
    { events := fun hne => absurd rfl hne
      regions := fun _ => by decide
      payloadTypes := fun hne => absurd rfl hne
      message := fun hmessage => by cases hmessage
      bbox := fun hvalid => by cases hvalid }
  exact absurd ((h _ _).mpr hasked) (by decide)

end CartoLive.Theorems.ScopeMatching
