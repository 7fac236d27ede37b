import CartoLive.Store.RouteCounts
import CartoLive.Web.Reducer
import CartoLive.Web.Sanitize

/-!
# What the sanitizers keep

A recovered event goes through the sanitizers, which trim texts and put defaults for missing
ones, before the reducer applies it. Here is what of a node, an activity or a pulse comes
through unchanged, and what of an event shows in the state of the page.
-/

namespace CartoLive.Web

open CartoLive.Go CartoLive.Live CartoLive.Lib CartoLive.Store

/-! ## Texts that the sanitizers keep -/

/-- `trim()` leaves the text as it is. -/
def Trimmed (text : String) : Prop := trim text = text

/-- A text with nothing to trim that is not empty. -/
def Named (text : String) : Prop := text ≠ "" ∧ Trimmed text

instance (text : String) : Decidable (Trimmed text) := by
  unfold Trimmed
  infer_instance

instance (text : String) : Decidable (Named text) := by
  unfold Named
  infer_instance

theorem trimmed_empty : Trimmed "" := by decide

/-- Text without white space is trimmed. -/
theorem trimmed_of_printed {text : String} (h : ∀ c ∈ text.toList, isJsSpace c = false) :
    Trimmed text :=
  trim_eq_self h

theorem sanitizeString_empty (text : String) : sanitizeString text "" = trim text := by
  unfold sanitizeString
  split
  · rename_i h
    exact h.symm
  · rfl

theorem sanitizeString_of_named {text : String} (h : Named text) (fallback : String) :
    sanitizeString text fallback = text := by
  unfold sanitizeString
  rw [h.2, if_neg h.1]

/-- With a fallback that is a name itself, only names are kept. -/
theorem sanitizeString_eq_iff {text fallback : String} (hfallback : Named fallback) :
    sanitizeString text fallback = text ↔ Named text := by
  refine ⟨fun h => ?_, fun h => sanitizeString_of_named h fallback⟩
  unfold sanitizeString at h
  split at h
  · rename_i hblank
    subst h
    exact absurd (hfallback.2.symm.trans hblank) hfallback.1
  · rename_i hne
    refine ⟨fun hempty => ?_, h⟩
    subst hempty
    exact hne trimmed_empty

/-- The characters from the exclamation mark to the tilde. -/
def Printed (c : Char) : Prop := 33 ≤ c.toNat ∧ c.toNat ≤ 126

theorem Printed.not_space {c : Char} (h : Printed c) : isJsSpace c = false := by
  obtain ⟨hlo, hhi⟩ := h
  simp only [isJsSpace, isSpace]
  grind

theorem named_of_printed {text : String} (hne : text ≠ "") (h : ∀ c ∈ text.toList, Printed c) :
    Named text :=
  ⟨hne, trimmed_of_printed fun c hc => (h c hc).not_space⟩

instance (c : Char) : Decidable (Printed c) := by
  unfold Printed
  infer_instance

theorem printed_of_isDigit {c : Char} (h : c.isDigit = true) : Printed c := by
  simp only [Char.isDigit, Bool.and_eq_true, decide_eq_true_eq] at h
  have hlo : 48 ≤ c.toNat := h.1
  have hhi : c.toNat ≤ 57 := h.2
  exact ⟨by omega, by omega⟩

theorem printed_digitChar : ∀ n < 16, Printed n.digitChar := by decide

theorem printed_hex8 (n : Nat) : ∀ c ∈ (hex8 n).toList, Printed c := by
  intro c hc
  simp only [hex8, String.toList_ofList, List.mem_append] at hc
  rcases hc with hc | hc
  · rw [List.eq_of_mem_replicate hc]
    decide
  · exact mem_toDigitsCore printed_digitChar (by simp) c hc

theorem printed_of_all {text : String}
    (h : (text.toList.all fun c => decide (Printed c)) = true) : ∀ c ∈ text.toList, Printed c :=
  fun c hc => of_decide_eq_true (List.all_eq_true.mp h c hc)

/-- A record's identifier: a printed word and a number. -/
theorem named_numbered {word : String} (hword : ∀ c ∈ word.toList, Printed c) (hne : word ≠ "")
    (n : Int) : Named (word ++ toString n) := by
  refine named_of_printed (fun h => hne ?_) fun c hc => ?_
  · have hlist := congrArg String.toList h
    rw [String.toList_append] at hlist
    exact String.toList_eq_nil_iff.mp (List.append_eq_nil_iff.mp hlist).1
  · rw [String.toList_append, List.mem_append] at hc
    rcases hc with hc | hc
    · exact hword c hc
    · rcases mem_toString n c hc with hdigit | rfl
      · exact printed_of_isDigit hdigit
      · decide

theorem named_publicRouteID (a b : String) : Named (publicRouteID a b) :=
  named_of_printed (publicRouteID_ne_empty a b)
    (mem_publicRouteID (by decide) (by decide) printed_digitChar a b)

theorem printed_of_publicSafeToken {text : String} (h : publicSafeToken text = true) :
    ∀ c ∈ text.toList, Printed c := by
  intro c hc
  unfold publicSafeToken at h
  rw [Bool.and_eq_true, List.all_eq_true] at h
  have hchar := h.2 c hc
  simp only [Bool.or_eq_true, Bool.and_eq_true, decide_eq_true_eq, List.mem_cons,
    List.not_mem_nil, or_false] at hchar
  unfold Printed
  rcases hchar with ((⟨hlo, hhi⟩ | ⟨hlo, hhi⟩) | ⟨hlo, hhi⟩) | rfl | rfl | rfl | rfl
  · have h1 : 97 ≤ c.toNat := hlo
    have h2 : c.toNat ≤ 122 := hhi
    omega
  · have h1 : 65 ≤ c.toNat := hlo
    have h2 : c.toNat ≤ 90 := hhi
    omega
  · have h1 : 48 ≤ c.toNat := hlo
    have h2 : c.toNat ≤ 57 := hhi
    omega
  all_goals decide

theorem named_publicNodeID (id : String) : Named (publicNodeID id) := by
  unfold publicNodeID
  dsimp only
  split
  · exact by decide
  · rename_i hne
    split
    · refine named_of_printed (fun h => ?_) fun c hc => ?_
      · have hlist := congrArg String.toList h
        simp [String.toList_append] at hlist
      · rw [String.toList_append, List.mem_append] at hc
        rcases hc with hc | hc
        · exact printed_of_all (by decide) c hc
        · exact printed_hex8 _ c hc
    · rename_i hsafe
      simp only [Bool.or_eq_true, not_or, Bool.not_eq_true, Bool.not_eq_false'] at hsafe
      exact named_of_printed hne (printed_of_publicSafeToken hsafe.2)

theorem printed_of_isHexDigit {c : Char} (h : isHexDigit c = true) : Printed c := by
  simp only [isHexDigit, Bool.or_eq_true, Bool.and_eq_true, decide_eq_true_eq] at h
  unfold Printed
  rcases h with (⟨hlo, hhi⟩ | ⟨hlo, hhi⟩) | ⟨hlo, hhi⟩
  · have h1 : 48 ≤ c.toNat := hlo
    have h2 : c.toNat ≤ 57 := hhi
    omega
  · have h1 : 97 ≤ c.toNat := hlo
    have h2 : c.toNat ≤ 102 := hhi
    omega
  · have h1 : 65 ≤ c.toNat := hlo
    have h2 : c.toNat ≤ 70 := hhi
    omega

theorem utf8Size_of_printed {c : Char} (h : Printed c) : c.utf8Size = 1 := by
  unfold Char.utf8Size
  rw [if_pos]
  have hhi : c.val.toNat ≤ 126 := h.2
  exact UInt32.le_iff_toNat_le.mpr (by
    show c.val.toNat ≤ 127
    omega)

theorem byteLen_of_printed {text : String} (h : ∀ c ∈ text.toList, Printed c) :
    byteLen text = text.toList.length := by
  unfold byteLen
  have hone : text.toList.map Char.utf8Size = text.toList.map fun _ => 1 :=
    List.map_congr_left fun c hc => utf8Size_of_printed (h c hc)
  rw [hone]
  simp

/-- The trimmed text is all hex digits. -/
theorem printed_of_looksSensitiveHex {text : String} {minLength : Nat}
    (h : looksSensitiveHex text minLength = true) :
    minLength ≤ (trimSpace text).toList.length ∧ ∀ c ∈ (trimSpace text).toList, Printed c := by
  unfold looksSensitiveHex at h
  simp only [Bool.and_eq_true, Bool.not_eq_true', decide_eq_false_iff_not, not_lt,
    List.all_eq_true] at h
  have hprinted : ∀ c ∈ (trimSpace text).toList, Printed c := fun c hc =>
    printed_of_isHexDigit (h.2 c hc)
  rw [byteLen_of_printed hprinted] at h
  exact ⟨h.1, hprinted⟩

theorem trimmed_publicPathHash3 (value : String) : Trimmed (publicPathHash3 value) := by
  unfold publicPathHash3
  dsimp only
  split
  · exact trimmed_empty
  · rename_i h
    push Not at h
    have hprinted := (printed_of_looksSensitiveHex (by simpa using h.2)).2
    rw [(of_upperTrim_eq (upperTrim_upperTrim value)).1] at hprinted
    exact trimmed_of_printed fun c hc => (hprinted c hc).not_space

theorem trimmed_pathHash3FromPublicKey (value : String) :
    Trimmed (pathHash3FromPublicKey value) := by
  unfold pathHash3FromPublicKey
  generalize upperTrim value = key
  dsimp only
  split
  · exact trimmed_empty
  · rename_i h
    push Not at h
    obtain ⟨hlen, hprinted⟩ := printed_of_looksSensitiveHex (by simpa using h.2)
    -- six hex digits are left of at most six characters, so that nothing was trimmed
    have hsub : (trimSpace (String.ofList (key.toList.take 6))).toList.Sublist
        (key.toList.take 6) := by
      unfold trimSpace
      rw [String.toList_ofList, String.toList_ofList]
      exact (List.rdropWhile_prefix _ _).sublist.trans (List.dropWhile_sublist _)
    have hsame := hsub.eq_of_length_le ((List.length_take_le 6 key.toList).trans hlen)
    rw [hsame] at hprinted
    exact trimmed_of_printed fun c hc => (hprinted c (by simpa using hc)).not_space

theorem trimmed_publicEndpointPathHash3 (endpoint : EdgeEndpoint) (index : PathHash3Index) :
    Trimmed (publicEndpointPathHash3 endpoint index) := by
  unfold publicEndpointPathHash3
  split
  · exact trimmed_publicPathHash3 _
  split
  · exact trimmed_publicPathHash3 _
  split
  · exact trimmed_publicPathHash3 _
  · exact trimmed_pathHash3FromPublicKey _

theorem displayLabel_ne_empty (name role : String) : displayLabel name role ≠ "" := by
  unfold displayLabel
  dsimp only
  split
  · rename_i h
    exact h.1
  split
  · decide
  split
  · decide
  split
  · decide
  split <;> decide

theorem normalizeNodeRole_normalizeRole (role : String) :
    normalizeNodeRole (normalizeRole role) = normalizeRole role := by
  unfold normalizeRole
  split
  · rename_i h
    simp only [List.mem_cons, List.not_mem_nil, or_false] at h
    rcases h with rfl | rfl | rfl | rfl <;> decide
  · decide

/-! ## Numbers -/

/-- A number that JSON can carry. -/
def Finite (x : F64) : Prop := x.isNaN = false ∧ x.isInf = false

theorem sanitizeNumber_of_finite {x : F64} (h : Finite x) (fallback : F64) :
    sanitizeNumber x fallback = x := by
  unfold sanitizeNumber
  rw [h.1, h.2]
  rfl

theorem finite_of_validPublicCoords [LiveEnv] {lat lng : F64}
    (h : validPublicCoords lat lng = true) : Finite lat ∧ Finite lng := by
  simp only [validPublicCoords, CoordinateBounds.validPoint, Bool.and_eq_true,
    Bool.not_eq_true'] at h
  exact ⟨⟨by tauto, by tauto⟩, ⟨by tauto, by tauto⟩⟩

/-! ## The effect of one event -/

/-- What an event is compared by; the sequence of a node does not count. -/
structure Effect where
  nodes : List PublicNode
  activity : List LiveActivity
  routes : List PublicRoute
  packets : Option Int

def unnumbered (node : PublicNode) : PublicNode := { node with seq := 0 }

def effect (state : AppState) : Effect :=
  { nodes := state.nodes.map unnumbered, activity := state.activity, routes := state.routes
    packets := state.stats.map PublicStats.packets }

@[simp] theorem effect_withLatestSeq (state : AppState) (seq : Option Int) :
    effect (withLatestSeq state seq) = effect state := by
  unfold withLatestSeq
  split
  · rfl
  · split
    · rfl
    · unfold effect
      rw [Option.map_map]
      rfl

@[simp] theorem effect_rememberSeq (state : AppState) (seq : Option Int) :
    effect (rememberSeq state seq) = effect state := by
  unfold rememberSeq
  split
  · rfl
  · split
    · rfl
    · simp only [effect]

@[simp] theorem effect_mark (state : AppState) (message : LiveMessage) :
    effect (state.mark message) = effect state := by
  simp [AppState.mark]

theorem applyPublicEnvelopes_single {state : AppState} {message : LiveMessage} {animate : Bool}
    (hdata : ∀ pulse, message.data ≠ some (.routePulse pulse)) :
    applyPublicEnvelopes state [message] animate =
      applyNonRouteEnvelope state message animate := by
  have hstep : ∀ loop : EnvelopeLoop, loop.step animate message =
      { loop with next := applyNonRouteEnvelope loop.next message animate } := by
    intro loop
    unfold EnvelopeLoop.step
    split
    · rename_i pulse _ hpulse
      exact absurd hpulse (hdata pulse)
    · rfl
  unfold applyPublicEnvelopes
  rw [List.foldl_cons, List.foldl_nil, hstep]
  exact if_pos rfl

variable {state : AppState} {message : LiveMessage}

theorem effect_nodeUpdate {node : PublicNode} (htype : message.type = .event)
    (hdata : message.data = some (.nodeUpdate node)) :
    effect (applyPublicEnvelopes state [message] false) =
      if state.hasSeen message then effect state
      else { effect state with
        nodes := unnumbered node ::
          (state.nodes.filter fun item => item.id ≠ node.id).map unnumbered } := by
  rw [applyPublicEnvelopes_single (by simp [hdata])]
  unfold applyNonRouteEnvelope
  rw [if_neg (fun hne => hne htype), hdata]
  split
  · simp
  · rw [effect_mark]
    unfold effect
    simp [Option.map_map, Function.comp_def]

theorem effect_activity {activity : LiveActivity} (htype : message.type = .event)
    (hdata : message.data = some (.activity activity)) :
    effect (applyPublicEnvelopes state [message] false) =
      if state.hasSeen message then effect state
      else if state.activity.any fun item =>
          item.id = (activity.withEnvelopeTiming message).id then effect state
      else { effect state with
        activity := (activity.withEnvelopeTiming message :: state.activity).take 240
        packets := state.stats.map fun stats =>
          if isPacketActivity (activity.withEnvelopeTiming message) then stats.packets + 1
          else stats.packets } := by
  rw [applyPublicEnvelopes_single (by simp [hdata])]
  unfold applyNonRouteEnvelope
  rw [if_neg (fun hne => hne htype), hdata]
  split
  · simp
  · dsimp only
    split
    · rw [effect_mark]
    · rw [effect_mark]
      unfold effect
      simp [Option.map_map, Function.comp_def]

theorem effect_upsertRoutes (next : AppState) (pulses : List LiveRoutePulse) :
    effect (next.upsertRoutes pulses) = { effect next with
      routes := (upsertPulseRoutesBatch next.routes next.routeIndex next.routeMaxPacketCount
        pulses).routes } := by
  unfold effect AppState.upsertRoutes
  dsimp only
  rw [Option.map_map]
  rfl

/-- The routes after one pulse come from what it touches. -/
theorem effect_routePulse {pulse : LiveRoutePulse} (htype : message.type = .event)
    (hdata : message.data = some (.routePulse pulse)) :
    effect (applyPublicEnvelopes state [message] false) =
      if state.hasSeen message ∨ pulse.id ∈ state.pulses.map (fun known => known.id) then
        effect state
      else { effect state with
        routes := (upsertPulseRoutesBatch state.routes state.routeIndex
          state.routeMaxPacketCount [pulse.withEnvelopeTiming message]).routes } := by
  have hstart : ∀ loop : EnvelopeLoop,
      loop.step false message = loop.applyPulse message false pulse := by
    intro loop
    unfold EnvelopeLoop.step
    rw [htype, hdata]
  unfold applyPublicEnvelopes
  rw [List.foldl_cons, List.foldl_nil, hstart]
  unfold EnvelopeLoop.applyPulse
  dsimp only
  by_cases hseen : state.hasSeen message = true
  · rw [if_pos hseen, if_pos (Or.inl hseen)]
    simp
  · rw [if_neg hseen]
    by_cases hknown : pulse.id ∈ state.pulses.map fun known => known.id
    · rw [if_pos (Or.inr hknown)]
      have hid : (pulse.withEnvelopeTiming message).id ∈ state.pulses.map fun known => known.id :=
        hknown
      rw [if_pos hid]
      simp
    · rw [if_neg (not_or.mpr ⟨hseen, hknown⟩)]
      have hid : (pulse.withEnvelopeTiming message).id ∉ state.pulses.map fun known => known.id :=
        hknown
      rw [if_neg hid]
      dsimp only
      rw [if_neg (by simp), effect_upsertRoutes, effect_mark, mark_routes, mark_routeIndex,
        mark_routeMaxPacketCount]
      simp only [effect, List.nil_append]

/-! ## What a pulse touches -/

theorem updatesOf_mem {pulse : LiveRoutePulse} {update : TouchedRoute}
    (h : update ∈ touchedRoutes [pulse]) :
    ∀ name, name ∈ update.payloadTypeNames ↔ name = pulse.payloadTypeName := by
  have htouched := touchedHold_touchedRoutes [pulse]
  have hby := htouched.touchedBy update.routeID
  rw [Keyed.get_of_mem htouched.nodup h] at hby
  have hname : ∀ hit ∈ hitsOn update.routeID [pulse],
      hit.payloadTypeName = pulse.payloadTypeName := by
    intro hit hmem
    rw [hitsOn_cons, hitsOn_nil, List.append_nil] at hmem
    obtain ⟨segment, -, rfl⟩ := List.mem_map.mp hmem
    rfl
  intro name
  rw [hby.mem_names]
  constructor
  · rintro ⟨hit, hmem, rfl⟩
    exact hname hit hmem
  · rintro rfl
    obtain ⟨hit, hmem⟩ := List.exists_mem_of_ne_nil _ hby.hit
    exact ⟨hit, hmem, hname hit hmem⟩

theorem segment_foldl_touchRoute (pulse : LiveRoutePulse) (segments : List PublicRouteSegment)
    {touched : List TouchedRoute} {seen : List String}
    (hseen : ∀ id, id ∈ seen ↔ id ∈ touched.map TouchedRoute.routeID) :
    (segments.foldl (touchRoute pulse) touched).map TouchedRoute.segment =
      touched.map TouchedRoute.segment ++
        Keyed.firstOfEach PublicRouteSegment.routeID seen segments := by
  induction segments generalizing touched seen with
  | nil => simp [Keyed.firstOfEach]
  | cons segment segments ih =>
    rw [List.foldl_cons, Keyed.firstOfEach]
    have hany : (touched.any fun existing => existing.routeID = segment.routeID) = true ↔
        segment.routeID ∈ seen := by
      rw [hseen]
      simp [List.any_eq_true]
    unfold touchRoute
    by_cases hmem : segment.routeID ∈ seen
    · rw [if_pos (hany.mpr hmem), if_pos hmem]
      have hkeeps : ∀ {β : Type} (f : TouchedRoute → β), (∀ existing, f (existing.hit pulse) =
          f existing) → (touched.map fun existing =>
            if existing.routeID = segment.routeID then existing.hit pulse else existing).map f =
          touched.map f := by
        intro β f hf
        rw [List.map_map]
        refine List.map_congr_left fun existing _ => ?_
        show f (if _ then _ else _) = _
        split
        · exact hf existing
        · rfl
      have hids : ∀ id, id ∈ seen ↔ id ∈ (touched.map fun existing =>
          if existing.routeID = segment.routeID then existing.hit pulse else existing).map
            TouchedRoute.routeID := by
        intro id
        rw [hkeeps _ fun _ => rfl]
        exact hseen id
      have hrest := ih hids
      rw [hkeeps _ fun _ => rfl] at hrest
      exact hrest
    · rw [if_neg (mt hany.mp hmem), if_neg hmem]
      have hids : ∀ id, id ∈ segment.routeID :: seen ↔
          id ∈ (touched ++ [firstTouch pulse segment]).map TouchedRoute.routeID := by
        intro id
        rw [List.map_append, List.mem_append, List.mem_cons, hseen]
        show _ ↔ _ ∨ id ∈ [segment.routeID]
        rw [List.mem_singleton, or_comm]
      have hrest := ih hids
      rw [List.map_append, List.append_assoc] at hrest
      exact hrest

/-- A pulse touches each of its routes with the first segment on it. -/
theorem segment_touchedRoutes (pulse : LiveRoutePulse) :
    (touchedRoutes [pulse]).map TouchedRoute.segment =
      Keyed.firstOfEach PublicRouteSegment.routeID [] pulse.segments :=
  segment_foldl_touchRoute pulse pulse.segments fun _ => Iff.rfl

/-- What tells route records of one pulse apart. -/
def shape (route : PublicRoute) : PublicRouteEndpoint × PublicRouteEndpoint × List String :=
  (route.source, route.target, route.payloadTypeNames)

def touchedShape (update : TouchedRoute) :
    PublicRouteEndpoint × PublicRouteEndpoint × List String :=
  (update.segment.source, update.segment.target, sortedNames update.payloadTypeNames)

theorem foldl_updateKnownRoute_empty (maxBefore : Int) (touched : List TouchedRoute)
    (batch : RouteBatchUpdate) :
    touched.foldl (updateKnownRoute emptyState.routes emptyState.routeIndex maxBefore) batch =
      batch := by
  induction touched with
  | nil => rfl
  | cons update touched ih => exact ih

/-- On a page without routes every touched route is new. -/
theorem shape_upsert_empty (pulses : List LiveRoutePulse) :
    (upsertPulseRoutesBatch emptyState.routes emptyState.routeIndex
      emptyState.routeMaxPacketCount pulses).routes.map shape =
      (touchedRoutes pulses).map touchedShape := by
  unfold upsertPulseRoutesBatch
  generalize touchedRoutes pulses = touched
  dsimp only
  split
  · rename_i hnone
    rw [hnone]
    rfl
  · have hleft : (touched.filter fun update =>
        (knownRoute emptyState.routes emptyState.routeIndex update).isNone) = touched :=
      List.filter_eq_self.mpr fun _ _ => rfl
    rw [foldl_updateKnownRoute_empty, hleft]
    split
    · unfold normalizeRouteBuckets
      rw [List.map_map, routes_foldl_addNewRoute]
      show (touched.map _).map _ = _
      rw [List.map_map]
      refine List.map_congr_left fun update _ => ?_
      show (_, _, sortedNames (sortedNames _)) = _
      rw [sortedNames_sortedNames]
      rfl
    · rw [routes_foldl_addNewRoute]
      show (touched.map _).map _ = _
      rw [List.map_map]
      rfl

/-! ## Sanitized segments -/

structure SoundEndpoint (endpoint : PublicRouteEndpoint) : Prop where
  nodeID : Named endpoint.nodeID
  pathHash3 : Trimmed endpoint.pathHash3
  lat : Finite endpoint.lat
  lng : Finite endpoint.lng

structure SoundSegment (segment : PublicRouteSegment) : Prop where
  routeID : Named segment.routeID
  source : SoundEndpoint segment.source
  target : SoundEndpoint segment.target
  distanceKM : Finite segment.distanceKM

def cleanedEndpoint (endpoint : PublicRouteEndpoint) : PublicRouteEndpoint :=
  { endpoint with label := sanitizeString endpoint.label endpoint.nodeID }

theorem label_cleanedEndpoint (endpoint : PublicRouteEndpoint) :
    (cleanedEndpoint endpoint).label = sanitizeString endpoint.label endpoint.nodeID := by
  rw [cleanedEndpoint]

def cleanedSegment (segment : PublicRouteSegment) : PublicRouteSegment :=
  { segment with
    source := cleanedEndpoint segment.source
    target := cleanedEndpoint segment.target }

@[simp] theorem routeID_cleanedSegment (segment : PublicRouteSegment) :
    (cleanedSegment segment).routeID = segment.routeID := by
  rw [cleanedSegment]

theorem sanitizePublicRouteEndpoint_of_sound {endpoint : PublicRouteEndpoint}
    (h : SoundEndpoint endpoint) :
    sanitizePublicRouteEndpoint endpoint = some (cleanedEndpoint endpoint) := by
  unfold sanitizePublicRouteEndpoint
  rw [sanitizeString_of_named h.nodeID, sanitizeNumber_of_finite h.lat,
    sanitizeNumber_of_finite h.lng, sanitizeStringOrUndefined, h.pathHash3]
  exact if_neg h.nodeID.1

theorem sanitizePublicStateSegment_of_sound {segment : PublicRouteSegment}
    (h : SoundSegment segment) :
    sanitizePublicStateSegment segment = some (cleanedSegment segment) := by
  unfold sanitizePublicStateSegment
  rw [sanitizePublicRouteEndpoint_of_sound h.source, sanitizePublicRouteEndpoint_of_sound h.target,
    sanitizeString_of_named h.routeID, sanitizeNumber_of_finite h.distanceKM]
  exact if_neg h.routeID.1

theorem filterMap_sanitizePublicStateSegment {segments : List PublicRouteSegment}
    (h : ∀ segment ∈ segments, SoundSegment segment) :
    segments.filterMap sanitizePublicStateSegment = segments.map cleanedSegment := by
  induction segments with
  | nil => rfl
  | cons segment segments ih =>
    rw [List.filterMap_cons, sanitizePublicStateSegment_of_sound (h segment List.mem_cons_self),
      ih fun later hlater => h later (List.mem_cons_of_mem _ hlater)]
    rfl

/-- Both labels of a segment are kept. -/
def CleanSegment (segment : PublicRouteSegment) : Prop :=
  Named segment.source.label ∧ Named segment.target.label

theorem cleanedEndpoint_eq_iff {endpoint : PublicRouteEndpoint} (h : SoundEndpoint endpoint) :
    cleanedEndpoint endpoint = endpoint ↔ Named endpoint.label := by
  have hlabel : cleanedEndpoint endpoint = endpoint ↔
      sanitizeString endpoint.label endpoint.nodeID = endpoint.label := by
    constructor
    · intro heq
      have hlabels := congrArg PublicRouteEndpoint.label heq
      rwa [label_cleanedEndpoint] at hlabels
    · intro heq
      unfold cleanedEndpoint
      rw [heq]
  exact hlabel.trans (sanitizeString_eq_iff h.nodeID)

/-- A touched route of the pulse with cleaned segments. -/
def cleanedTouched (name : String) (update : TouchedRoute) : TouchedRoute :=
  { update with
    segment := cleanedSegment update.segment
    payloadTypeNames := update.payloadTypeNames.map fun _ => name }

@[simp] theorem routeID_cleanedTouched (name : String) (update : TouchedRoute) :
    (cleanedTouched name update).routeID = update.routeID := by
  rw [TouchedRoute.routeID, cleanedTouched, routeID_cleanedSegment]
  rfl

theorem foldl_touchRoute_cleaned {pulse recovered : LiveRoutePulse}
    (hheard : recovered.heardAt = pulse.heardAt) (segments : List PublicRouteSegment)
    (touched : List TouchedRoute) :
    (segments.map cleanedSegment).foldl (touchRoute recovered)
        (touched.map (cleanedTouched recovered.payloadTypeName)) =
      (segments.foldl (touchRoute pulse) touched).map
        (cleanedTouched recovered.payloadTypeName) := by
  induction segments generalizing touched with
  | nil => rfl
  | cons segment segments ih =>
    rw [List.map_cons, List.foldl_cons, List.foldl_cons, ← ih]
    refine congrArg (List.foldl (touchRoute recovered) · (segments.map cleanedSegment)) ?_
    have hany : ((touched.map (cleanedTouched recovered.payloadTypeName)).any fun existing =>
        existing.routeID = (cleanedSegment segment).routeID) =
        touched.any fun existing => existing.routeID = segment.routeID := by
      rw [Bool.eq_iff_iff, List.any_eq_true, List.any_eq_true]
      constructor
      · rintro ⟨_, hcleaned, hkey⟩
        obtain ⟨existing, hmem, rfl⟩ := List.mem_map.mp hcleaned
        have hkey := of_decide_eq_true hkey
        rw [routeID_cleanedTouched, routeID_cleanedSegment] at hkey
        exact ⟨existing, hmem, decide_eq_true hkey⟩
      · rintro ⟨existing, hmem, hkey⟩
        refine ⟨_, List.mem_map_of_mem hmem, decide_eq_true ?_⟩
        rw [routeID_cleanedTouched, routeID_cleanedSegment]
        exact of_decide_eq_true hkey
    unfold touchRoute
    rw [hany]
    by_cases hknown : (touched.any fun existing => existing.routeID = segment.routeID) = true
    · rw [if_pos hknown, if_pos hknown, List.map_map, List.map_map]
      refine List.map_congr_left fun existing _ => ?_
      have hkey : (cleanedTouched recovered.payloadTypeName existing).routeID =
          (cleanedSegment segment).routeID ↔ existing.routeID = segment.routeID := by
        rw [routeID_cleanedTouched, routeID_cleanedSegment]
      rw [Function.comp_apply, Function.comp_apply]
      by_cases hsame : existing.routeID = segment.routeID
      · rw [if_pos hsame, if_pos (hkey.mpr hsame)]
        simp [cleanedTouched, TouchedRoute.hit, hheard]
      · rw [if_neg hsame, if_neg (mt hkey.mp hsame)]
    · rw [if_neg hknown, if_neg hknown, List.map_append, hheard]
      simp [cleanedTouched]

theorem touchedRoutes_cleaned {pulse recovered : LiveRoutePulse}
    (hheard : recovered.heardAt = pulse.heardAt)
    (hsegments : recovered.segments = pulse.segments.map cleanedSegment) :
    touchedRoutes [recovered] =
      (touchedRoutes [pulse]).map (cleanedTouched recovered.payloadTypeName) := by
  show recovered.segments.foldl (touchRoute recovered) [] = _
  rw [hsegments]
  exact foldl_touchRoute_cleaned hheard pulse.segments []

/-! ## Pulses -/

/-- The payload type and the labels that route records take from a pulse are kept. -/
structure CleanPulse (item : PublicRoutePulse) : Prop where
  payloadTypeName : Named item.payloadTypeName
  segments : ∀ segment ∈ Keyed.firstOfEach PublicRouteSegment.routeID [] item.segments,
    CleanSegment segment

section Pulse

variable {pulse recovered : LiveRoutePulse}

theorem cleanedSegment_eq_iff {segment : PublicRouteSegment} (h : SoundSegment segment) :
    cleanedEndpoint segment.source = segment.source ∧
      cleanedEndpoint segment.target = segment.target ↔ CleanSegment segment :=
  and_congr (cleanedEndpoint_eq_iff h.source) (cleanedEndpoint_eq_iff h.target)

/-- A clean pulse touches the same routes in the same way. -/
theorem touchedRoutes_of_clean (hsound : ∀ segment ∈ pulse.segments, SoundSegment segment)
    (hheard : recovered.heardAt = pulse.heardAt)
    (hname : recovered.payloadTypeName = sanitizeString pulse.payloadTypeName "Message")
    (hsegments : recovered.segments = pulse.segments.map cleanedSegment)
    (hclean : CleanPulse pulse.toPublicRoutePulse) :
    touchedRoutes [recovered] = touchedRoutes [pulse] := by
  rw [touchedRoutes_cleaned hheard hsegments, hname, sanitizeString_of_named hclean.payloadTypeName]
  conv_rhs => rw [← List.map_id (touchedRoutes [pulse])]
  refine List.map_congr_left fun update hupdate => ?_
  have hfirst : update.segment ∈
      Keyed.firstOfEach PublicRouteSegment.routeID [] pulse.segments := by
    rw [← segment_touchedRoutes]
    exact List.mem_map_of_mem hupdate
  obtain ⟨hsource, htarget⟩ :=
    (cleanedSegment_eq_iff (hsound _ (Keyed.mem_of_mem_firstOfEach hfirst).1)).mpr
      (hclean.segments _ hfirst)
  have hnames : (update.payloadTypeNames.map fun _ => pulse.payloadTypeName) =
      update.payloadTypeNames := by
    conv_rhs => rw [← List.map_id update.payloadTypeNames]
    exact List.map_congr_left fun name hmem => ((updatesOf_mem hupdate name).mp hmem).symm
  unfold cleanedTouched cleanedSegment
  rw [hsource, htarget, hnames]
  rfl

/-- Where a pulse makes the same records on a page without routes, it is clean. -/
theorem clean_of_shapes (hsound : ∀ segment ∈ pulse.segments, SoundSegment segment)
    (hne : pulse.segments ≠ []) (hheard : recovered.heardAt = pulse.heardAt)
    (hname : recovered.payloadTypeName = sanitizeString pulse.payloadTypeName "Message")
    (hsegments : recovered.segments = pulse.segments.map cleanedSegment)
    (hshapes : (touchedRoutes [recovered]).map touchedShape =
      (touchedRoutes [pulse]).map touchedShape) :
    CleanPulse pulse.toPublicRoutePulse := by
  rw [touchedRoutes_cleaned hheard hsegments, List.map_map] at hshapes
  have hsame := List.map_inj_left.mp hshapes
  constructor
  · obtain ⟨update, hupdate⟩ : ∃ update, update ∈ touchedRoutes [pulse] := by
      refine List.exists_mem_of_ne_nil _ fun hnil => ?_
      have hfirst := segment_touchedRoutes pulse
      rw [hnil] at hfirst
      cases hsegs : pulse.segments with
      | nil => exact hne hsegs
      | cons segment segments =>
        rw [hsegs, Keyed.firstOfEach] at hfirst
        simp at hfirst
    have hnames : sortedNames (update.payloadTypeNames.map fun _ => recovered.payloadTypeName) =
        sortedNames update.payloadTypeNames := congrArg (fun x => x.2.2) (hsame update hupdate)
    have hown : pulse.payloadTypeName ∈ sortedNames update.payloadTypeNames :=
      mem_sortedNames.mpr ((updatesOf_mem hupdate _).mpr rfl)
    rw [← hnames] at hown
    obtain ⟨name, -, heq⟩ := List.mem_map.mp (mem_sortedNames.mp hown)
    rw [hname] at heq
    exact (sanitizeString_eq_iff (by decide)).mp heq
  · intro segment hsegment
    have hmem : segment ∈ pulse.segments := (Keyed.mem_of_mem_firstOfEach hsegment).1
    change segment ∈ Keyed.firstOfEach PublicRouteSegment.routeID [] pulse.segments at hsegment
    rw [← segment_touchedRoutes] at hsegment
    obtain ⟨update, hupdate, rfl⟩ := List.mem_map.mp hsegment
    have hshape := hsame update hupdate
    exact (cleanedSegment_eq_iff (hsound _ hmem)).mp
      ⟨congrArg (fun x => x.1) hshape, congrArg (fun x => x.2.1) hshape⟩

end Pulse

/-! ## Nodes and activity -/

/-- The parts of an activity that show and are trimmed. -/
structure CleanActivity (item : PublicActivity) : Prop where
  payloadTypeName : Named item.payloadTypeName
  routeTypeName : Trimmed item.routeTypeName
  iata : Trimmed item.iata
  region : Trimmed item.region
  messageSender : Trimmed item.messageSender
  messageText : Trimmed item.messageText
  location : ∀ location, item.observerLocation = some location →
    Named location.label ∧ Trimmed location.iata ∧ Trimmed location.region
  anchor : ∀ anchor, item.messageAnchor = some anchor → Named anchor.label

/-- What the builders see to. -/
structure SoundActivity (item : PublicActivity) : Prop where
  id : Named item.id
  kind : item.kind = "packet"
  animationState : sanitizeAnimationState item.animationState = item.animationState
  resolutionBucket : sanitizeResolutionBucket item.resolutionBucket = item.resolutionBucket
  location : ∀ location, item.observerLocation = some location →
    Finite location.lat ∧ Finite location.lng
  anchor : ∀ anchor, item.messageAnchor = some anchor →
    Trimmed anchor.kind ∧ Trimmed anchor.nodeID ∧ Finite anchor.lat ∧ Finite anchor.lng

theorem bind_eq_self_iff {α : Type} {f : α → Option α} {value : Option α} :
    value.bind f = value ↔ ∀ x, value = some x → f x = some x := by
  cases value <;> simp

theorem sanitizePublicObserverLocation_eq_iff {location : PublicObserverLocation}
    (hlat : Finite location.lat) (hlng : Finite location.lng) :
    sanitizePublicObserverLocation location = some location ↔
      Named location.label ∧ Trimmed location.iata ∧ Trimmed location.region := by
  unfold sanitizePublicObserverLocation sanitizeStringOrUndefined
  rw [sanitizeString_empty, sanitizeNumber_of_finite hlat, sanitizeNumber_of_finite hlng]
  dsimp only
  constructor
  · intro h
    split at h
    · cases h
    · rename_i hne
      have hlabel := congrArg (Option.map PublicObserverLocation.label) h
      have hiata := congrArg (Option.map PublicObserverLocation.iata) h
      have hregion := congrArg (Option.map PublicObserverLocation.region) h
      simp only [Option.map_some, Option.some.injEq] at hlabel hiata hregion
      exact ⟨⟨fun hempty => hne (hlabel.trans hempty), hlabel⟩, hiata, hregion⟩
  · rintro ⟨⟨hne, hlabel⟩, hiata, hregion⟩
    rw [hlabel, hiata, hregion, if_neg hne]

theorem sanitizePublicMessageAnchor_eq_iff {anchor : PublicMessageAnchor}
    (hkind : Trimmed anchor.kind) (hnodeID : Trimmed anchor.nodeID) (hlat : Finite anchor.lat)
    (hlng : Finite anchor.lng) :
    sanitizePublicMessageAnchor anchor = some anchor ↔ Named anchor.label := by
  unfold sanitizePublicMessageAnchor sanitizeStringOrUndefined
  rw [sanitizeString_empty, sanitizeString_empty, sanitizeNumber_of_finite hlat,
    sanitizeNumber_of_finite hlng, hkind, hnodeID]
  dsimp only
  constructor
  · intro h
    split at h
    · cases h
    · rename_i hne
      have hlabel := congrArg (Option.map PublicMessageAnchor.label) h
      simp only [Option.map_some, Option.some.injEq] at hlabel
      exact ⟨fun hempty => hne (hlabel.trans hempty), hlabel⟩
  · rintro ⟨hne, hlabel⟩
    rw [hlabel, if_neg hne]

/-- An activity with the timing of its envelope. -/
def timed (item : PublicActivity) (seq receivedAt : Int) : LiveActivity :=
  { item with seq, receivedAt := some receivedAt, displayAt := some receivedAt }

theorem sanitizePublicStateActivity_spec {item : PublicActivity} (h : SoundActivity item) :
    ∃ recovered, sanitizePublicStateActivity item = some recovered ∧ ∀ seq receivedAt,
      (timed recovered.toPublicActivity seq receivedAt = timed item seq receivedAt ↔
        CleanActivity item) := by
  unfold sanitizePublicStateActivity
  rw [sanitizeString_of_named h.id]
  refine ⟨_, if_neg h.id.1, fun seq receivedAt => ?_⟩
  have hkind : sanitizeActivityKind item.kind = item.kind := by
    rw [h.kind]
    decide
  have hlocation : item.observerLocation.bind sanitizePublicObserverLocation =
      item.observerLocation ↔ ∀ location, item.observerLocation = some location →
        Named location.label ∧ Trimmed location.iata ∧ Trimmed location.region := by
    rw [bind_eq_self_iff]
    refine forall₂_congr fun location hlocation => ?_
    obtain ⟨hlat, hlng⟩ := h.location location hlocation
    exact sanitizePublicObserverLocation_eq_iff hlat hlng
  have hanchor : item.messageAnchor.bind sanitizePublicMessageAnchor = item.messageAnchor ↔
      ∀ anchor, item.messageAnchor = some anchor → Named anchor.label := by
    rw [bind_eq_self_iff]
    refine forall₂_congr fun anchor hanchor => ?_
    obtain ⟨hkind, hnodeID, hlat, hlng⟩ := h.anchor anchor hanchor
    exact sanitizePublicMessageAnchor_eq_iff hkind hnodeID hlat hlng
  have hpayload : sanitizeString item.payloadTypeName "Message" = item.payloadTypeName ↔
      Named item.payloadTypeName := sanitizeString_eq_iff (by decide)
  rw [hkind, h.animationState, h.resolutionBucket]
  unfold timed sanitizeStringOrUndefined
  simp only [LiveActivity.mk.injEq, PublicActivity.mk.injEq, true_and, and_true, hpayload,
    hlocation, hanchor]
  constructor
  · rintro ⟨h1, h2, h3, h4, h5, h6, h7, h8⟩
    exact ⟨h1, h2, h3, h4, h6, h7, h5, h8⟩
  · rintro ⟨h1, h2, h3, h4, h6, h7, h5, h8⟩
    exact ⟨h1, h2, h3, h4, h5, h6, h7, h8⟩

/-- What the builder of a node sees to. -/
structure SoundNode (item : PublicNode) : Prop where
  id : Named item.id
  role : normalizeNodeRole item.role = item.role
  latitude : Finite item.latitude
  longitude : Finite item.longitude

theorem sanitizePublicStateNode_spec {item : PublicNode} (h : SoundNode item) :
    ∃ recovered, sanitizePublicStateNode item = some recovered ∧ recovered.id = item.id ∧
      (unnumbered recovered = unnumbered item ↔ Named item.label) := by
  unfold sanitizePublicStateNode
  rw [sanitizeString_of_named h.id]
  refine ⟨_, if_neg h.id.1, rfl, ?_⟩
  rw [h.role, sanitizeNumber_of_finite h.latitude, sanitizeNumber_of_finite h.longitude]
  unfold unnumbered
  simp only [PublicNode.mk.injEq, true_and, and_true]
  exact sanitizeString_eq_iff h.id

end CartoLive.Web
