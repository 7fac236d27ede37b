import CartoLive.Go.Numbers
import CartoLive.Store.Propagation

/-!
# The propagation refresh

`refreshPropagationOnce` of `lifecycle.go` and the classifier that it asks, of
`classifier.go`: a refresh reads the candidates of the last day, the newest first and 40
at most, and gives an event to those that are allowed and classified.

The weather, the sun and the burst count make the score and the reasons of an event but
do not decide whether there is one, and the midpoint of a route goes to the weather
service only; they are left out. Store and deadline errors do not occur.
-/

namespace CartoLive.App

open CartoLive.Go CartoLive.Live CartoLive.Store

/-! ## The classifier -/

structure Classifier where
  minDistanceKM : F64

/-- The default of 75 km, in the refresh and in the classifier. -/
def minDistanceOrDefault (minDistanceKM : F64) : F64 :=
  if minDistanceKM.le (.fin 0) then .fin 75 else minDistanceKM

/-- `PropagationEventID`. -/
def propagationEventID (packet : MeasuredPath) : String :=
  let id := trimPrefix (trimSpace packet.id) "pulse-"
  "prop-" ++ if id = "" then toString packet.heardAt else id

/-- `Classify`. -/
def Classifier.classify (c : Classifier) (packet : MeasuredPath) : Option PublicPropagationEvent :=
  if packet.distanceKM.lt (minDistanceOrDefault c.minDistanceKM) ∨ packet.segments.length = 0 ∨
      packet.heardAt ≤ 0 then none
  else
    some
      { id := propagationEventID packet
        heardAt := packet.heardAt
        region := upperTrim (firstNonEmpty [packet.region, packet.iata]) }

/-- The `weightSum` of `RouteMidpoint`. -/
def weightSum (segments : List PublicRouteSegment) : F64 :=
  segments.foldl (fun sum segment =>
    sum.add (if segment.distanceKM.le (.fin 0) then .fin 1 else segment.distanceKM)) (.fin 0)

/-- Whether `RouteMidpoint` finds a midpoint. -/
def hasRouteMidpoint (packet : MeasuredPath) : Bool := !(weightSum packet.segments).le (.fin 0)

/-! ## The refresh -/

/-- The configured distance, and the filter of the public cache if there is one. -/
structure PropagationSettings where
  minDistanceKM : F64
  publicCache : Option PublicIATAFilter

namespace PropagationSettings

variable (settings : PropagationSettings)

def minDistance : F64 := minDistanceOrDefault settings.minDistanceKM

/-- The region of a candidate is excluded. -/
def excludes (region iata : String) : Bool :=
  let region := if upperTrim region = "" then upperTrim iata else upperTrim region
  region ≠ "" && settings.publicCache.any fun cache => !cache.allows region

/-- One round of the loop over the candidates. -/
def refreshCandidate (s : PropagationStore) (packet : MeasuredPath) : PropagationStore :=
  if settings.excludes packet.region packet.iata then s
  else if !hasRouteMidpoint packet then s
  else
    match Classifier.classify { minDistanceKM := settings.minDistance } packet with
    | none => s
    | some event => s.upsertPropagationEvent event

def candidateWindow : Int := 86400000
def candidateLimit : Int := 40

/-- `refreshPropagationOnce`. -/
def refreshPropagationOnce (s : PropagationStore) (now : Int) : PropagationStore :=
  (s.propagationCandidatePaths now (now - candidateWindow) now settings.minDistance
    candidateLimit).foldl settings.refreshCandidate s

end PropagationSettings

/-! ## One candidate -/

theorem weightSum_pos {segments : List PublicRouteSegment} (h : segments ≠ []) :
    (weightSum segments).le (.fin 0) = false := by
  have hweight : ∀ segment : PublicRouteSegment,
      (if segment.distanceKM.le (.fin 0) then F64.fin 1 else segment.distanceKM).le (.fin 0) =
        false := by
    intro segment
    split
    · rfl
    · rename_i hpos
      exact Bool.eq_false_iff.mpr hpos
  -- the sum starts at zero and is positive after the first segment
  have hsum : ∀ (segments : List PublicRouteSegment) (sum : F64), sum.le (.fin 0) = false →
      (segments.foldl (fun sum segment => sum.add
        (if segment.distanceKM.le (.fin 0) then .fin 1 else segment.distanceKM)) sum).le
          (.fin 0) = false := by
    intro segments
    induction segments with
    | nil => exact fun _ hpos => hpos
    | cons segment segments ih =>
      exact fun sum hpos => ih _ (F64.add_pos (.inr hpos) (hweight segment))
  obtain ⟨segment, segments, rfl⟩ := List.exists_cons_of_ne_nil h
  exact hsum segments _ (F64.add_pos (.inl rfl) (hweight segment))

theorem not_lt_of_le {x y : F64} (h : x.le y = true) : y.lt x = false := by
  unfold F64.lt
  rw [Bool.and_eq_false_iff, Bool.not_eq_false', or_iff_not_imp_left, Bool.not_eq_false]
  intro hback
  cases x with
  | nan => cases y <;> cases h
  | inf negative =>
    cases y with
    | nan => cases negative <;> cases h
    | fin b => cases negative <;> first | cases h; done | cases hback
    | inf other =>
      cases negative <;> cases other <;> first | rfl | cases h; done | cases hback
  | fin a =>
    cases y with
    | nan => cases h
    | inf negative => cases negative <;> first | cases h; done | cases hback
    | fin b => exact decide_eq_true (congrArg F64.fin
        (le_antisymm (of_decide_eq_true hback) (of_decide_eq_true h)))

/-- The identifier of the event of an edge is that of the edge. -/
theorem propagationEdgeID_prop {id : Int} (hpos : 0 < id) :
    propagationEdgeID ("prop-" ++ toString id) = id := by
  have hprinted := isSpace_of_mem_toString id
  have htrim : trimSpace ("prop-" ++ toString id) = "prop-" ++ toString id := by
    refine String.toList_inj.mp ?_
    rw [toList_trimSpace_append "prop-" (toString id)
      (fun c hc => hprinted c (List.mem_of_mem_head? hc))
      (fun c hc => hprinted c (List.mem_of_mem_getLast? hc)) (toList_toString_ne_nil id),
      String.toList_append]
    rfl
  have hprop : trimPrefix ("prop-" ++ toString id) "prop-" = toString id := by
    unfold trimPrefix
    rw [String.toList_append, if_pos (List.prefix_append ..), List.drop_left, String.ofList_toList]
  have hpulse : trimPrefix (toString id) "pulse-" = toString id := by
    refine if_neg fun hstart => ?_
    -- a printed number begins with a digit or a sign
    obtain ⟨rest, hrest⟩ := hstart
    have hfirst := mem_toString id 'p' (hrest ▸ List.mem_cons_self)
    revert hfirst
    decide
  unfold propagationEdgeID
  rw [htrim, hprop, hpulse, parseInt_toString]
  exact if_neg (by omega)

namespace PropagationSettings

variable {settings : PropagationSettings}

/-- What a candidate needs for an event, beyond being one. -/
structure Accepts (settings : PropagationSettings) (row : MeasuredRow) : Prop where
  allowed : settings.excludes row.region row.iata = false
  heardAt : 0 < row.heardAt

instance (settings : PropagationSettings) (row : MeasuredRow) : Decidable (settings.Accepts row) :=
  decidable_of_iff (settings.excludes row.region row.iata = false ∧ 0 < row.heardAt)
    ⟨fun h => ⟨h.1, h.2⟩, fun h => ⟨h.allowed, h.heardAt⟩⟩

theorem minDistanceOrDefault_idem (x : F64) :
    minDistanceOrDefault (minDistanceOrDefault x) = minDistanceOrDefault x := by
  unfold minDistanceOrDefault
  split <;> rfl

theorem classify_scanMeasuredPath {row : MeasuredRow} (hsegments : row.segments ≠ [])
    (hdistance : settings.minDistance.le row.distanceKM = true) :
    Classifier.classify { minDistanceKM := settings.minDistance } (scanMeasuredPath row) =
      if row.heardAt ≤ 0 then none
      else
        some
          { id := "prop-" ++ toString row.edgeID
            heardAt := row.heardAt
            region := upperTrim (firstNonEmpty [row.region, row.iata]) } := by
  have hid : propagationEventID (scanMeasuredPath row) = "prop-" ++ toString row.edgeID := by
    show "prop-" ++ (if trimPrefix (trimSpace (pulseID row.edgeID)) "pulse-" = "" then _
      else trimPrefix (trimSpace (pulseID row.edgeID)) "pulse-") = _
    rw [trimSpace_pulseID, trimPrefix_pulseID, if_neg]
    exact fun hempty => toList_toString_ne_nil row.edgeID (by rw [hempty]; rfl)
  have hfar : (scanMeasuredPath row).distanceKM.lt settings.minDistance = false :=
    not_lt_of_le hdistance
  have hlength : (scanMeasuredPath row).segments.length ≠ 0 := by
    show (row.segments.map _).length ≠ 0
    rw [List.length_map]
    exact fun hzero => hsegments (List.length_eq_zero_iff.mp hzero)
  have hheard : (scanMeasuredPath row).heardAt = row.heardAt := rfl
  unfold Classifier.classify
  dsimp only
  rw [show minDistanceOrDefault settings.minDistance = settings.minDistance from
    minDistanceOrDefault_idem settings.minDistanceKM, hfar, hid]
  simp only [Bool.false_eq_true, hlength, false_or, hheard]
  rfl

theorem hasRouteMidpoint_scanMeasuredPath {row : MeasuredRow} (hsegments : row.segments ≠ []) :
    hasRouteMidpoint (scanMeasuredPath row) = true := by
  have hne : (scanMeasuredPath row).segments ≠ [] := fun hnil =>
    hsegments (List.map_eq_nil_iff.mp hnil)
  unfold hasRouteMidpoint
  rw [weightSum_pos hne]
  rfl

/-- One round gives an event to the edge of an accepted candidate, and no other. -/
theorem hasEvent_refreshCandidate {row : MeasuredRow} (hpos : 0 < row.edgeID)
    (hsegments : row.segments ≠ []) (hdistance : settings.minDistance.le row.distanceKM = true)
    (s : PropagationStore) (edgeID : Int) :
    (settings.refreshCandidate s (scanMeasuredPath row)).HasEvent edgeID ↔
      (settings.Accepts row ∧ edgeID = row.edgeID) ∨ s.HasEvent edgeID := by
  have hregion : settings.excludes (scanMeasuredPath row).region (scanMeasuredPath row).iata =
      settings.excludes row.region row.iata := rfl
  unfold refreshCandidate
  rw [hregion, hasRouteMidpoint_scanMeasuredPath hsegments,
    classify_scanMeasuredPath hsegments hdistance]
  cases hexcluded : settings.excludes row.region row.iata with
  | true =>
    rw [if_pos rfl]
    exact ⟨.inr, fun h => h.resolve_left fun haccepts =>
      absurd haccepts.1.allowed (by rw [hexcluded]; decide)⟩
  | false =>
    by_cases hheard : row.heardAt ≤ 0
    · rw [if_pos hheard]
      exact ⟨.inr, fun h => h.resolve_left fun haccepts => absurd haccepts.1.heardAt (by omega)⟩
    · rw [if_neg hheard]
      have hedge := propagationEdgeID_prop hpos
      generalize "prop-" ++ toString row.edgeID = id at hedge ⊢
      dsimp only
      rw [if_neg (by decide), if_neg (by decide), PropagationStore.hasEvent_upsertPropagationEvent]
      · rw [hedge]
        exact or_congr_left ⟨fun heq => ⟨⟨hexcluded, by omega⟩, heq⟩, And.right⟩
      · rw [hedge]
        exact hpos

theorem paths_refreshCandidate (s : PropagationStore) (packet : MeasuredPath) :
    (settings.refreshCandidate s packet).paths = s.paths := by
  unfold refreshCandidate
  split
  · rfl
  split
  · rfl
  split
  · rfl
  · exact PropagationStore.paths_upsertPropagationEvent s _

/-! ## One refresh -/

/-- The candidates of a refresh at a time, the newest first. -/
def candidates (settings : PropagationSettings) (s : PropagationStore) (now : Int) :
    List MeasuredRow :=
  s.candidateRows now (now - candidateWindow) now settings.minDistance

theorem refreshPropagationOnce_eq (s : PropagationStore) (now : Int) :
    settings.refreshPropagationOnce s now =
      ((settings.candidates s now).take 40).foldl
        (fun s row => settings.refreshCandidate s (scanMeasuredPath row)) s := by
  unfold refreshPropagationOnce PropagationStore.propagationCandidatePaths
  rw [List.foldl_map]
  rfl

theorem paths_refreshPropagationOnce (s : PropagationStore) (now : Int) :
    (settings.refreshPropagationOnce s now).paths = s.paths := by
  unfold refreshPropagationOnce
  generalize s.propagationCandidatePaths _ _ _ _ _ = packets
  induction packets generalizing s with
  | nil => rfl
  | cons packet packets ih =>
    rw [List.foldl_cons, ih, paths_refreshCandidate]

theorem mem_candidates {s : PropagationStore} {now : Int} {row : MeasuredRow} :
    row ∈ settings.candidates s now ↔ row ∈ s.paths ∧
      s.candidateCondition now (now - candidateWindow) now settings.minDistance row := by
  unfold candidates PropagationStore.candidateRows
  rw [mem_selectRows]
  exact and_congr_right fun _ => and_iff_left fun _ h => by cases h

/-- **One refresh.** The edges that have an event after it are those that had one before
and those of the accepted rows among the first 40 candidates. -/
theorem hasEvent_refreshPropagationOnce {s : PropagationStore} (hprojected : Projected s.paths)
    (now edgeID : Int) :
    (settings.refreshPropagationOnce s now).HasEvent edgeID ↔
      (∃ row ∈ (settings.candidates s now).take 40,
        settings.Accepts row ∧ edgeID = row.edgeID) ∨ s.HasEvent edgeID := by
  have hfold : ∀ (rows : List MeasuredRow) (s' : PropagationStore),
      (∀ row ∈ rows, 0 < row.edgeID ∧ row.segments ≠ [] ∧
        settings.minDistance.le row.distanceKM = true) →
      ((rows.foldl (fun s row => settings.refreshCandidate s (scanMeasuredPath row))
          s').HasEvent edgeID ↔
        (∃ row ∈ rows, settings.Accepts row ∧ edgeID = row.edgeID) ∨ s'.HasEvent edgeID) := by
    intro rows
    induction rows with
    | nil => simp
    | cons row rows ih =>
      intro s' hrows
      obtain ⟨hpos, hsegments, hdistance⟩ := hrows row List.mem_cons_self
      rw [List.foldl_cons, ih _ fun row' hrow' => hrows row' (List.mem_cons_of_mem _ hrow'),
        hasEvent_refreshCandidate hpos hsegments hdistance, List.exists_mem_cons_iff, ← or_assoc,
        or_comm (a := ∃ row ∈ rows, _)]
  rw [refreshPropagationOnce_eq]
  refine hfold _ s fun row hrow => ?_
  obtain ⟨hpath, hmappable, -, -, hdistance, -⟩ := mem_candidates.mp (List.mem_of_mem_take hrow)
  exact ⟨hprojected.positive row hpath, hprojected.segments row hpath hmappable, hdistance⟩

end PropagationSettings

end CartoLive.App
