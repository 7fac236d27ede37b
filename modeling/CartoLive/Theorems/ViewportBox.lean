import CartoLive.Api.PublicViewport
import CartoLive.Live.Public
import CartoLive.Theorems.ScopeMatching

/-!
# Two tests for a box

A live subscription tests the points of the typed data; the viewport reads the stored
JSON of the same event into one struct for every kind of data. The struct tells an
absent coordinate from a zero one nowhere: an activity or pulse is tested at (0, 0)
too (`stray_activity`), and a pulse at its message anchor, which the live test leaves
out. The two tests agree where no such point decides.

## Main results

* `readCandidate_toJSON`: what the viewport reads of a stored event.
* `box_tests_agree_iff`: for which events and boxes the tests agree.
-/

namespace CartoLive.Theorems.ViewportBox

open CartoLive.Go CartoLive.Live CartoLive.Api
open CartoLive.Go.Json (readMembers_cons_of_unknown readMembers_cons_of_field
  readMembers_omitEmpty_append readMembers_omitText_append readMembers_omitTexts_append
  readMembers_of_unknown)
open CartoLive.Theorems.ScopeMatching (eventPoints publicEventIntersectsBBox_iff
  length_of_validScopeBBox)

/-! ## Reading a stored event -/

/-- The two coordinates of a point. -/
theorem readMembers_coordinates {lat lng : F64} {latitude longitude : Json}
    (hlat : Json.ofFloat lat = some latitude) (hlng : Json.ofFloat lng = some longitude)
    (rest : List (String × Json)) (point : Point) :
    Json.readMembers pointFields (("lat", latitude) :: ("lng", longitude) :: rest) point =
      Json.readMembers pointFields rest { lat, lng } := by
  have hlatField : Json.findField pointFields "lat" = some _ := rfl
  have hlngField : Json.findField pointFields "lng" = some _ := rfl
  rw [readMembers_cons_of_field hlatField]
  dsimp only
  rw [Json.readFloat_ofFloat hlat, Option.bind_some, readMembers_cons_of_field hlngField]
  dsimp only
  rw [Json.readFloat_ofFloat hlng, Option.bind_some]

theorem readPoint_observerLocation {location : PublicObserverLocation} {j : Json}
    (h : location.toJSON = some j) (point : Point) :
    readPoint j point = some { lat := location.lat, lng := location.lng } := by
  obtain ⟨lat, hlat, hrest⟩ := Option.bind_eq_some_iff.mp h
  obtain ⟨lng, hlng, rfl⟩ := Option.map_eq_some_iff.mp hrest
  show Json.readMembers pointFields _ point = _
  simp (disch := decide) only [List.append_assoc, List.cons_append, List.nil_append,
    readMembers_cons_of_unknown, readMembers_omitText_append]
  rw [readMembers_coordinates hlat hlng]
  rfl

theorem readPoint_messageAnchor {anchor : PublicMessageAnchor} {j : Json}
    (h : anchor.toJSON = some j) (point : Point) :
    readPoint j point = some { lat := anchor.lat, lng := anchor.lng } := by
  obtain ⟨lat, hlat, hrest⟩ := Option.bind_eq_some_iff.mp h
  obtain ⟨lng, hlng, rfl⟩ := Option.map_eq_some_iff.mp hrest
  show Json.readMembers pointFields _ point = _
  simp (disch := decide) only [List.cons_append, List.nil_append, readMembers_cons_of_unknown,
    readMembers_omitText_append]
  rw [readMembers_coordinates hlat hlng]
  rfl

theorem readPoint_endpoint {endpoint : PublicRouteEndpoint} {j : Json}
    (h : endpoint.toJSON = some j) (point : Point) :
    readPoint j point = some { lat := endpoint.lat, lng := endpoint.lng } := by
  obtain ⟨lat, hlat, hrest⟩ := Option.bind_eq_some_iff.mp h
  obtain ⟨lng, hlng, rfl⟩ := Option.map_eq_some_iff.mp hrest
  show Json.readMembers pointFields _ point = _
  simp (disch := decide) only [List.cons_append, List.nil_append, readMembers_cons_of_unknown]
  rw [readMembers_coordinates hlat hlng]
  refine readMembers_of_unknown (fun m hm => ?_) _
  rw [Json.mem_omitEmpty hm]
  rfl

/-- The two ends of a segment. -/
def ends (segment : PublicRouteSegment) : Point × Point :=
  ({ lat := segment.source.lat, lng := segment.source.lng },
    { lat := segment.target.lat, lng := segment.target.lng })

theorem readSegment_toJSON {segment : PublicRouteSegment} {j : Json}
    (h : segment.toJSON = some j) (s : Point × Point) : readSegment j s = some (ends segment) := by
  obtain ⟨source, hsource, hrest⟩ := Option.bind_eq_some_iff.mp h
  obtain ⟨target, htarget, hrest⟩ := Option.bind_eq_some_iff.mp hrest
  obtain ⟨distance, -, rfl⟩ := Option.map_eq_some_iff.mp hrest
  show Json.readMembers segmentFields _ s = _
  have hfrom : Json.findField segmentFields "from" = some _ := rfl
  have hto : Json.findField segmentFields "to" = some _ := rfl
  rw [readMembers_cons_of_unknown rfl, readMembers_cons_of_field hfrom]
  dsimp only
  rw [readPoint_endpoint hsource, Option.map_some, Option.bind_some, readMembers_cons_of_field hto]
  dsimp only
  rw [readPoint_endpoint htarget, Option.map_some, Option.bind_some,
    readMembers_cons_of_unknown rfl]
  rfl

theorem ne_null_of_observerLocation {location : PublicObserverLocation} {j : Json}
    (h : location.toJSON = some j) : j ≠ .null := by
  obtain ⟨lat, -, hrest⟩ := Option.bind_eq_some_iff.mp h
  obtain ⟨lng, -, rfl⟩ := Option.map_eq_some_iff.mp hrest
  exact nofun

theorem ne_null_of_messageAnchor {anchor : PublicMessageAnchor} {j : Json}
    (h : anchor.toJSON = some j) : j ≠ .null := by
  obtain ⟨lat, -, hrest⟩ := Option.bind_eq_some_iff.mp h
  obtain ⟨lng, -, rfl⟩ := Option.map_eq_some_iff.mp hrest
  exact nofun

def locationPoint (location : PublicObserverLocation) : Point :=
  { lat := location.lat, lng := location.lng }

def anchorPoint (anchor : PublicMessageAnchor) : Point := { lat := anchor.lat, lng := anchor.lng }

theorem readMembers_observerLocation {location : Option PublicObserverLocation}
    {members : List (String × Json)}
    (h : Json.omitNil "observerLocation" PublicObserverLocation.toJSON location = some members)
    (rest : List (String × Json)) {c : Candidate} (hc : c.observerLocation = none) :
    Json.readMembers candidateFields (members ++ rest) c =
      Json.readMembers candidateFields rest
        { c with observerLocation := location.map locationPoint } := by
  have hfield : Json.findField candidateFields "observerLocation" = some _ := rfl
  refine Json.readMembers_omitNil_append hfield h (fun hnil => ?_) (fun v hv j hj => ?_) rest
  · rw [hnil, Option.map_none, ← hc]
  · dsimp only
    rw [Json.readPointer_of_ne_null (ne_null_of_observerLocation hj),
      readPoint_observerLocation hj, Option.mem_def.mp hv]
    rfl

theorem readMembers_messageAnchor {anchor : Option PublicMessageAnchor}
    {members : List (String × Json)}
    (h : Json.omitNil "messageAnchor" PublicMessageAnchor.toJSON anchor = some members)
    (rest : List (String × Json)) {c : Candidate} (hc : c.messageAnchor = none) :
    Json.readMembers candidateFields (members ++ rest) c =
      Json.readMembers candidateFields rest { c with messageAnchor := anchor.map anchorPoint } := by
  have hfield : Json.findField candidateFields "messageAnchor" = some _ := rfl
  refine Json.readMembers_omitNil_append hfield h (fun hnil => ?_) (fun v hv j hj => ?_) rest
  · rw [hnil, Option.map_none, ← hc]
  · dsimp only
    rw [Json.readPointer_of_ne_null (ne_null_of_messageAnchor hj),
      readPoint_messageAnchor hj, Option.mem_def.mp hv]
    rfl

/-- What the struct holds of an event's data. -/
def candidateOf : PublicData → Candidate
  | .node item =>
    { Candidate.zero with latitude := item.latitude, longitude := item.longitude }
  | .activity item =>
    { Candidate.zero with
      observerLocation := item.observerLocation.map locationPoint
      messageAnchor := item.messageAnchor.map anchorPoint }
  | .pulse item =>
    { Candidate.zero with
      messageAnchor := item.messageAnchor.map anchorPoint
      segments := item.segments.map ends }

theorem readCandidate_node {nilSlices : Bool} {item : PublicNode} {raw : Json}
    (h : item.toJSON nilSlices = some raw) :
    readCandidate raw = some (candidateOf (.node item)) := by
  obtain ⟨latitude, hlat, hrest⟩ := Option.bind_eq_some_iff.mp h
  obtain ⟨longitude, hlng, rfl⟩ := Option.map_eq_some_iff.mp hrest
  have hlatField : Json.findField candidateFields "latitude" = some _ := rfl
  have hlngField : Json.findField candidateFields "longitude" = some _ := rfl
  show Json.readMembers candidateFields _ Candidate.zero = _
  simp (disch := decide) only [List.append_assoc, List.cons_append, List.nil_append,
    readMembers_omitEmpty_append, readMembers_cons_of_unknown]
  rw [readMembers_cons_of_field hlatField]
  dsimp only
  rw [Json.readFloat_ofFloat hlat, Option.bind_some, readMembers_cons_of_field hlngField]
  dsimp only
  rw [Json.readFloat_ofFloat hlng, Option.bind_some]
  simp (disch := decide) only [readMembers_omitTexts_append, readMembers_cons_of_unknown]
  rfl

theorem readCandidate_activity {item : PublicActivity} {raw : Json} (h : item.toJSON = some raw) :
    readCandidate raw = some (candidateOf (.activity item)) := by
  obtain ⟨observerLocation, hlocation, hrest⟩ := Option.bind_eq_some_iff.mp h
  obtain ⟨messageAnchor, hanchor, rfl⟩ := Option.map_eq_some_iff.mp hrest
  show Json.readMembers candidateFields _ Candidate.zero = _
  simp (disch := decide) only [List.append_assoc, List.cons_append, List.nil_append,
    readMembers_omitEmpty_append, readMembers_omitText_append, readMembers_cons_of_unknown]
  rw [readMembers_observerLocation hlocation _ rfl]
  simp (disch := decide) only [readMembers_omitText_append, readMembers_omitTexts_append]
  rw [← List.append_nil messageAnchor, readMembers_messageAnchor hanchor _ rfl]
  rfl

theorem readCandidate_pulse {nilSlices : Bool} {item : PublicRoutePulse} {raw : Json}
    (h : item.toJSON nilSlices = some raw) :
    readCandidate raw = some (candidateOf (.pulse item)) := by
  obtain ⟨messageAnchor, hanchor, hrest⟩ := Option.bind_eq_some_iff.mp h
  obtain ⟨segments, hsegments, rfl⟩ := Option.map_eq_some_iff.mp hrest
  have hfield : Json.findField candidateFields "segments" = some _ := rfl
  show Json.readMembers candidateFields _ Candidate.zero = _
  simp (disch := decide) only [List.append_assoc, List.cons_append, List.nil_append,
    readMembers_omitEmpty_append, readMembers_omitText_append, readMembers_cons_of_unknown]
  rw [readMembers_messageAnchor hanchor _ rfl]
  simp (disch := decide) only [readMembers_cons_of_unknown]
  rw [readMembers_cons_of_field hfield]
  dsimp only
  rw [Json.readSlice_ofSlice (fun v j hj => readSegment_toJSON hj _) hsegments, Option.bind_some]
  rfl

/-- **What the viewport reads.** The stored JSON of an event is read as its points, with
zeros where the data has none. -/
theorem readCandidate_toJSON {nilSlices : Bool} {data : PublicData} {raw : Json}
    (h : data.toJSON nilSlices = some raw) : readCandidate raw = some (candidateOf data) := by
  cases data with
  | node item => exact readCandidate_node h
  | activity item => exact readCandidate_activity h
  | pulse item => exact readCandidate_pulse h

/-! ## The boxes -/

theorem parseBBoxField_finite {parseNumber : String → Option ℚ} {field : String} {value : F64}
    (h : parseBBoxField parseNumber field = some value) : ∃ q, value = .fin q := by
  obtain ⟨-, hfinite⟩ := Option.filter_eq_some_iff.mp h
  cases value with
  | fin q => exact ⟨q, rfl⟩
  | nan => cases hfinite
  | inf negative => cases hfinite

theorem le_of_imp_eq {a b : ℚ} (h : a ≤ b → a = b) : b ≤ a :=
  (le_total a b).elim (fun hle => (h hle).ge) id

/-- A box of the viewport is a box of a subscription. -/
theorem validScopeBBox_of_parseBBox {parseNumber : String → Option ℚ} {raw : String}
    {bbox : List F64} (h : parseBBox parseNumber raw = some bbox) : validScopeBBox bbox = true := by
  unfold parseBBox at h
  split at h
  · rename_i west south east north hfields
    have hfinite : ∀ value, some value ∈ [some west, some south, some east, some north] →
        ∃ q, value = F64.fin q := by
      intro value hvalue
      rw [← hfields] at hvalue
      obtain ⟨field, -, hfield⟩ := List.mem_map.mp hvalue
      exact parseBBoxField_finite hfield
    obtain ⟨w, rfl⟩ := hfinite west (by simp)
    obtain ⟨s, rfl⟩ := hfinite south (by simp)
    obtain ⟨e, rfl⟩ := hfinite east (by simp)
    obtain ⟨n, rfl⟩ := hfinite north (by simp)
    split at h
    · cases h
    · rename_i hin
      cases h
      simp only [F64.le, F64.lt, F64.eqb, Bool.or_eq_true, Bool.and_eq_true, decide_eq_true_eq,
        Bool.not_eq_true', decide_eq_false_iff_not, F64.fin.injEq, not_or, not_le, not_and,
        not_not] at hin
      obtain ⟨⟨⟨⟨⟨hwe, hsn⟩, hsouth⟩, hnorth⟩, hwest⟩, heast⟩ := hin
      simp only [validScopeBBox, F64.le, F64.lt, F64.eqb, F64.isNaN, F64.isInf, List.all_cons,
        List.all_nil, Bool.and_eq_true, decide_eq_true_eq, Bool.not_eq_true',
        decide_eq_false_iff_not, F64.fin.injEq, Bool.not_false, and_self, true_and]
      exact ⟨⟨⟨⟨⟨le_of_imp_eq hsouth, le_of_imp_eq hnorth⟩, le_of_imp_eq hwest⟩,
        le_of_imp_eq heast⟩, hwe.le, hwe.ne⟩, hsn.le, hsn.ne⟩
  · cases h

/-! ## The two tests -/

/-- The points that only the viewport tests. -/
def strayPoints : PublicData → List (F64 × F64)
  | .node _ => []
  | .activity _ => [(.fin 0, .fin 0)]
  | .pulse item =>
    (.fin 0, .fin 0) :: (item.messageAnchor.map fun anchor => (anchor.lng, anchor.lat)).toList

/-- One of the points is in the box. -/
def Meets (points : List (F64 × F64)) (bbox : List F64) : Prop :=
  ∃ point ∈ points, pointInBBox point.1 point.2 bbox = true

theorem any_eq_true_iff_meets {points : List (F64 × F64)} {bbox : List F64} :
    (points.any fun point => pointInBBox point.1 point.2 bbox) = true ↔ Meets points bbox :=
  List.any_eq_true

/-- The viewport tests what the live subscription tests, and the stray points. -/
theorem publicEventInBBox_eq {nilSlices : Bool} {event : PublicEvent} {raw : Json}
    (h : event.data.toJSON nilSlices = some raw) {bbox : List F64} (hlength : bbox.length = 4) :
    publicEventInBBox raw bbox =
      (((strayPoints event.data).any fun point => pointInBBox point.1 point.2 bbox) ||
        publicEventIntersectsBBox event bbox) := by
  unfold publicEventInBBox publicEventIntersectsBBox
  rw [if_neg (not_not.mpr hlength), readCandidate_toJSON h]
  cases event.data with
  | node item => simp [candidateOf, Candidate.zero, strayPoints]
  | activity item =>
    dsimp only [candidateOf, Candidate.zero, strayPoints]
    rw [hlength]
    cases item.observerLocation <;> cases item.messageAnchor <;>
      simp [locationPoint, anchorPoint, Point.inBBox, Bool.or_assoc]
  | pulse item =>
    dsimp only [candidateOf, Candidate.zero, strayPoints]
    rw [hlength, List.any_map]
    cases item.messageAnchor <;>
      simp [anchorPoint, ends, Point.inBBox, Bool.or_assoc, Function.comp_def]

/-- **The two tests for a box** agree on a stored event exactly if a box with a point that
only the viewport tests has a point of the event too. -/
theorem box_tests_agree_iff (eventType : String) (data : PublicData) (now : Int)
    (nilSlices : Bool) {raw : Json} {bbox : List F64} (hbox : validScopeBBox bbox = true)
    (hjson : (publicEventFromData eventType data now).data.toJSON nilSlices = some raw) :
    (publicEventIntersectsBBox (publicEventFromData eventType data now) bbox = true ↔
        publicEventInBBox raw bbox = true) ↔
      (Meets (strayPoints data) bbox → Meets (eventPoints data) bbox) := by
  have hdata : (publicEventFromData eventType data now).data = data := by
    cases data <;> rfl
  have hlength := length_of_validScopeBBox hbox
  rw [publicEventInBBox_eq hjson hlength, Bool.or_eq_true, any_eq_true_iff_meets,
    publicEventIntersectsBBox_iff _ hlength, hdata]
  show (Meets (eventPoints data) bbox ↔ _ ∨ Meets (eventPoints data) bbox) ↔ _
  exact ⟨fun hagree hstray => hagree.mpr (.inl hstray),
    fun hcovers => ⟨.inr, fun hmeets => hmeets.elim hcovers id⟩⟩

/-- A packet that an observer at a place heard. -/
def heardAtPlace (lat lng : ℚ) : PublicData :=
  .activity
    { PublicActivity.sample "a" 1 with
      observerLocation :=
        some { label := "Observer", iata := "YOW", region := "YOW", lat := .fin lat
               lng := .fin lng } }

/-- A box around the observer, away from (0, 0). -/
theorem box_tests_agree_at_place :
    ∃ raw, (publicEventFromData "activity" (heardAtPlace 45 (-75)) 1).data.toJSON false =
        some raw ∧
      (publicEventIntersectsBBox (publicEventFromData "activity" (heardAtPlace 45 (-75)) 1)
          [.fin (-76), .fin 44, .fin (-74), .fin 46] = true ↔
        publicEventInBBox raw [.fin (-76), .fin 44, .fin (-74), .fin 46] = true) :=
  ⟨_, rfl, (box_tests_agree_iff "activity" (heardAtPlace 45 (-75)) 1 false (by decide +kernel)
    rfl).mpr fun _ => ⟨_, List.mem_cons_self, by decide +kernel⟩⟩

/-- The numbers of a box around (0, 0). -/
def unitNumber (s : String) : Option ℚ :=
  if s = "-1" then some (-1) else if s = "1" then some 1 else none

/-- A packet without a place is in a box around (0, 0) for the viewport. -/
theorem stray_activity :
    ¬ ∀ (parseNumber : String → Option ℚ) (text eventType : String) (data : PublicData) (now : Int)
      (nilSlices : Bool) (raw : Json) (bbox : List F64),
      parseBBox parseNumber text = some bbox → validScopeBBox bbox = true →
      (publicEventFromData eventType data now).data.toJSON nilSlices = some raw →
      (publicEventIntersectsBBox (publicEventFromData eventType data now) bbox = true ↔
        publicEventInBBox raw bbox = true) := by
  intro h
  have hagree := h unitNumber "-1,-1,1,1" "activity" (.activity (.sample "a" 1)) 1 false _
    [.fin (-1), .fin (-1), .fin 1, .fin 1] (by decide +kernel) (by decide +kernel) rfl
  exact absurd (hagree.mpr (by decide +kernel)) (by decide +kernel)

end CartoLive.Theorems.ViewportBox
