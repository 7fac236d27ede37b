import CartoLive.Live.Public

/-!
# Packet paths

`PublicPacketPath` and how `public.go` makes one from a route pulse. The length
of the path, a sum of doubles that nothing compares, is left out.

The packet pages filter edges by their packet paths; `PathOf` is what a packet
path says of its edge.
-/

namespace CartoLive.Live

open CartoLive.Go

/-- `PublicPacketPath`; `heardAt` is its field `At`. -/
structure PublicPacketPath where
  id : String
  heardAt : Int
  iata : String
  region : String
  payloadTypeName : String
  messageSender : String
  messageText : String
  hopCount : Int
  segmentCount : Int
  routeIDs : List String
  endpointLabels : List String
  segments : List PublicRouteSegment
  deriving DecidableEq

/-- The identifier of the pulse of an edge. -/
def pulseID (id : Int) : String := "pulse-" ++ toString id

section Env

variable [LiveEnv]

/-- The coordinate check of `PublicPacketPathFromPulse` on a segment. -/
def validSegment (segment : PublicRouteSegment) : Bool :=
  validPublicCoords segment.source.lat segment.source.lng &&
    validPublicCoords segment.target.lat segment.target.lng

/-- `PublicPacketPathFromPulse`. -/
def publicPacketPathFromPulse (pulse : PublicRoutePulse) : Option PublicPacketPath :=
  let segments := pulse.segments.filter validSegment
  if segments = [] then none
  else
    some
      { id := trimSpace pulse.id
        heardAt := pulse.heardAt
        iata := upperTrim pulse.iata
        region := upperTrim pulse.iata
        payloadTypeName := trimSpace pulse.payloadTypeName
        messageSender := publicMessageSender pulse.messageSender
        messageText := publicMessageText pulse.messageText
        hopCount := segments.length
        segmentCount := segments.length
        routeIDs := uniqueSorted (segments.map PublicRouteSegment.routeID)
        endpointLabels := uniqueConsecutive
          (((pulse.segments.head?.filter validSegment).map fun segment => segment.source.label).toList
            ++ segments.map fun segment => segment.target.label)
        segments }

/-- `publicPacketPath`. -/
def publicPacketPath (edge : EdgeEvent) (index : PathHash3Index) : Option PublicPacketPath :=
  (publicRoutePulseFromEdge edge index).bind publicPacketPathFromPulse

/-! ## Texts -/

omit [LiveEnv] in
/-- The words of a text are not empty and have no blank. -/
theorem mem_fieldsFrom {cs word w : List Char} (hword : ∀ c ∈ word, isSpace c = false)
    (h : w ∈ fieldsFrom cs word) : w ≠ [] ∧ ∀ c ∈ w, isSpace c = false := by
  induction cs generalizing word with
  | nil =>
    unfold fieldsFrom at h
    split at h
    · cases h
    · rename_i hne
      rw [List.mem_singleton.mp h]
      exact ⟨by simpa using hne, fun c hc => hword c (List.mem_reverse.mp hc)⟩
  | cons c cs ih =>
    unfold fieldsFrom at h
    split at h
    · split at h
      · exact ih (fun _ hc => by cases hc) h
      · rename_i hne
        rcases List.mem_cons.mp h with rfl | h
        · exact ⟨by simpa using hne, fun c hc => hword c (List.mem_reverse.mp hc)⟩
        · exact ih (fun _ hc => by cases hc) h
    · rename_i hc
      refine ih (fun d hd => ?_) h
      rcases List.mem_cons.mp hd with rfl | hd
      · simpa using hc
      · exact hword d hd

omit [LiveEnv] in
/-- A displayed text that is not empty is not blank. -/
theorem trimSpace_publicDisplayText (value : String) {maxRunes : Nat} (hpos : 0 < maxRunes)
    (h : publicDisplayText value maxRunes ≠ "") :
    trimSpace (publicDisplayText value maxRunes) ≠ "" := by
  unfold publicDisplayText at h ⊢
  dsimp only at h ⊢
  split at h
  · exact absurd rfl h
  rename_i hvalue
  rw [if_neg hvalue]
  rw [if_neg (by omega)] at h ⊢
  -- a text with a word begins with a character that is not a blank
  generalize hwords : fields _ = words at h ⊢
  cases words with
  | nil => exact absurd (by simp [String.intercalate]) h
  | cons w rest =>
    obtain ⟨chars, hchars, rfl⟩ := List.mem_map.mp
      (show w ∈ fields _ from hwords ▸ List.mem_cons_self)
    obtain ⟨hne, hprinted⟩ := mem_fieldsFrom (fun _ hc => by cases hc) hchars
    obtain ⟨c, cs, rfl⟩ := List.exists_cons_of_ne_nil hne
    have hfirst : ∃ tail, (" ".intercalate (String.ofList (c :: cs) :: rest)).toList = c :: tail := by
      rw [String.toList_intercalate, List.map_cons, String.toList_ofList]
      cases rest <;> simp [List.intercalate]
    obtain ⟨tail, htail⟩ := hfirst
    obtain ⟨n, rfl⟩ : ∃ n, maxRunes = n + 1 := ⟨maxRunes - 1, by omega⟩
    rw [htail, List.take_succ_cons]
    intro hempty
    have hblank := trimSpace_eq_empty_iff.mp hempty c (by simp)
    rw [hprinted c (by simp)] at hblank
    cases hblank

/-- A message that is not empty is not blank. -/
theorem trimSpace_publicMessageText (value : String) :
    trimSpace (publicMessageText value) = "" ↔ publicMessageText value = "" := by
  constructor
  · intro h
    by_contra hne
    unfold publicMessageText at h hne
    split at hne
    · exact hne rfl
    · rename_i hvalue
      rw [if_neg hvalue] at h
      exact trimSpace_publicDisplayText _ (by omega) hne h
  · intro h
    rw [h]
    rfl

/-! ## Identifiers -/

omit [LiveEnv] in
theorem trimSpace_pulseID (id : Int) : trimSpace (pulseID id) = pulseID id := by
  have hprinted := isSpace_of_mem_toString id
  refine String.toList_inj.mp ?_
  unfold pulseID
  rw [toList_trimSpace_append "pulse-" (toString id) (fun c hc => ?_) (fun c hc => ?_)
    (toList_toString_ne_nil id), String.toList_append]
  · rfl
  · exact hprinted c (List.mem_of_mem_head? hc)
  · exact hprinted c (List.mem_of_mem_getLast? hc)

omit [LiveEnv] in
theorem trimPrefix_pulseID (id : Int) : trimPrefix (pulseID id) "pulse-" = toString id := by
  have hlist : (pulseID id).toList = "pulse-".toList ++ (toString id).toList := String.toList_append
  unfold trimPrefix
  rw [hlist, if_pos (List.prefix_append ..), List.drop_left, String.ofList_toList]

omit [LiveEnv] in
theorem pulseID_inj {id id' : Int} (h : pulseID id = pulseID id') : id = id' := by
  have htexts := congrArg (trimPrefix · "pulse-") h
  rw [trimPrefix_pulseID, trimPrefix_pulseID] at htexts
  exact toString_inj htexts

/-! ## The path of an edge -/

/-- The pulse and the path of an edge, where there is one. -/
theorem publicRoutePulseFromEdge_eq_none_iff (edge : EdgeEvent) (index : PathHash3Index) :
    publicRoutePulseFromEdge edge index = none ↔ mappableSegments edge = [] := by
  unfold publicRoutePulseFromEdge
  dsimp only
  split
  · rename_i hnil
    exact iff_of_true rfl (List.map_eq_nil_iff.mp hnil)
  · rename_i hne
    exact iff_of_false (fun h => by cases h) fun hnil => hne (List.map_eq_nil_iff.mpr hnil)

/-- The pulse of an edge with a segment on the map. -/
theorem exists_pulse {edge : EdgeEvent} (hmappable : mappableSegments edge ≠ [])
    (index : PathHash3Index) :
    ∃ pulse, publicRoutePulseFromEdge edge index = some pulse ∧
      pulse.segments = (mappableSegments edge).map (publicSegment index) ∧
      pulse.id = pulseID edge.id ∧ pulse.heardAt = edge.heardAt ∧
      pulse.iata = toUpper edge.iata ∧ pulse.payloadTypeName = edge.payloadTypeName ∧
      pulse.messageText = publicMessageText edge.messageText := by
  have hsegments : (mappableSegments edge).map (publicSegment index) ≠ [] :=
    fun hnil => hmappable (List.map_eq_nil_iff.mp hnil)
  refine ⟨_, if_neg hsegments, ?_⟩
  dsimp only
  exact ⟨rfl, rfl, rfl, rfl, rfl, rfl⟩

/-- What the packet path of an edge says of the edge. -/
structure PathOf (edge : EdgeEvent) (packet : PublicPacketPath) : Prop where
  id : packet.id = pulseID edge.id
  heardAt : packet.heardAt = edge.heardAt
  iata : packet.iata = upperTrim edge.iata
  payloadTypeName : packet.payloadTypeName = trimSpace edge.payloadTypeName
  messageText : packet.messageText = publicMessageText (publicMessageText edge.messageText)
  hopCount : packet.hopCount = (mappableSegments edge).length
  segments : packet.segments ≠ []

theorem validSegment_publicSegment {edge : EdgeEvent} {index : PathHash3Index} :
    ∀ segment ∈ (mappableSegments edge).map (publicSegment index), validSegment segment = true := by
  intro segment hsegment
  obtain ⟨raw, hraw, rfl⟩ := List.mem_map.mp hsegment
  obtain ⟨-, hends⟩ := List.mem_filter.mp hraw
  simpa only [validSegment, publicSegment, publicEndpoint, validEndpoint] using hends

/-- A path loses no segment of a pulse that has only valid ones. -/
theorem publicPacketPathFromPulse_of_valid {pulse : PublicRoutePulse}
    (hsegments : pulse.segments ≠ [])
    (hvalid : ∀ segment ∈ pulse.segments, validSegment segment = true) :
    publicPacketPathFromPulse pulse = some
      { id := trimSpace pulse.id
        heardAt := pulse.heardAt
        iata := upperTrim pulse.iata
        region := upperTrim pulse.iata
        payloadTypeName := trimSpace pulse.payloadTypeName
        messageSender := publicMessageSender pulse.messageSender
        messageText := publicMessageText pulse.messageText
        hopCount := pulse.segments.length
        segmentCount := pulse.segments.length
        routeIDs := uniqueSorted (pulse.segments.map PublicRouteSegment.routeID)
        endpointLabels := uniqueConsecutive
          ((pulse.segments.head?.map fun segment => segment.source.label).toList ++
            pulse.segments.map fun segment => segment.target.label)
        segments := pulse.segments } := by
  have hhead : pulse.segments.head?.filter validSegment = pulse.segments.head? := by
    cases hfirst : pulse.segments.head? with
    | none => rfl
    | some segment =>
      rw [Option.filter_some, if_pos (hvalid segment (List.mem_of_mem_head? hfirst))]
  unfold publicPacketPathFromPulse
  rw [List.filter_eq_self.mpr hvalid, hhead]
  exact if_neg hsegments

/-- An edge has a packet path if it has a segment on the map. -/
theorem publicPacketPath_spec {edge : EdgeEvent} (hmappable : mappableSegments edge ≠ [])
    (index : PathHash3Index) :
    ∃ packet, publicPacketPath edge index = some packet ∧ PathOf edge packet := by
  have hsegments : (mappableSegments edge).map (publicSegment index) ≠ [] :=
    fun hnil => hmappable (List.map_eq_nil_iff.mp hnil)
  obtain ⟨pulse, hpulse, hpath, hid, hheard, hiata, hpayload, htext⟩ := exists_pulse hmappable index
  unfold publicPacketPath
  rw [hpulse, Option.bind_some, publicPacketPathFromPulse_of_valid (hpath ▸ hsegments)
    (hpath ▸ validSegment_publicSegment)]
  refine ⟨_, rfl, ?_⟩
  exact
    { id := by rw [hid, trimSpace_pulseID]
      heardAt := hheard
      iata := by rw [hiata, upperTrim_toUpper]
      payloadTypeName := by rw [hpayload]
      messageText := by rw [htext]
      hopCount := by rw [hpath, List.length_map]
      segments := hpath ▸ hsegments }

theorem publicPacketPath_of_unmappable {edge : EdgeEvent} (h : mappableSegments edge = [])
    (index : PathHash3Index) : publicPacketPath edge index = none := by
  unfold publicPacketPath
  rw [(publicRoutePulseFromEdge_eq_none_iff edge index).mpr h]
  rfl

end Env

end CartoLive.Live
