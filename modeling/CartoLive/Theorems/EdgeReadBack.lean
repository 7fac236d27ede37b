import CartoLive.Mqtt.Extract
import CartoLive.Theorems.EdgeChains

/-!
# Stored edges read back

The row of an edge holds its segments as JSON, and `EncodeSegments` drops the
error of `json.Marshal`. The coordinates of a built edge are finite, since they
are on the map; a signal need not be, since `ParseFloat` accepts the text `NaN`.
A stored edge is read back as it was broadcast exactly when its signal and its
distances are finite (`reads_back_iff`).
-/

namespace CartoLive.Theorems.EdgeReadBack

open CartoLive.App CartoLive.Go CartoLive.Live CartoLive.Meshcore CartoLive.Mqtt CartoLive.Resolve
  CartoLive.Store CartoLive.Theorems.EdgeChains

/-! ## What is claimed of a stored edge -/

/-- The segments and the anchor of the edge. -/
def SameEdge (read edge : SignalEdge) : Prop :=
  read.segments = edge.segments ∧ read.messageAnchor = edge.messageAnchor

/-- The edge's segments have a text, and whoever reads its row finds the edge. -/
structure ReadsBack (t : EdgeTable) (edge : SignalEdge) : Prop where
  encoded : (encodeSegments edge.segments).isSome = true
  recent : ∀ iataOf limit now, ∀ read ∈ t.recentEdgeEvents iataOf limit now, read.id = edge.id →
    SameEdge read edge
  backfill : ∀ iataOf hasPath since until_ limit now,
    ∀ read ∈ t.missingEdges iataOf hasPath since until_ limit now, read.id = edge.id →
      SameEdge read edge

/-! ## Rows -/

section Rows

variable {t : EdgeTable} {edge : SignalEdge}

/-- The row that was stored last is known by its identifier. -/
theorem eq_rowOf_of_id {row : EdgeRow} (h : row ∈ (t.insert edge).rows)
    (hid : row.id = t.sequence + 1) : row = EdgeTable.rowOf (t.sequence + 1) edge := by
  rcases List.mem_append.mp h with hold | hnew
  · have := t.id_le row hold
    omega
  · exact List.mem_singleton.mp hnew

/-- The columns of an edge that can be encoded are decoded to it. -/
theorem sameEdge_scanRow (hsegments : edge.segments.all finiteSegment = true)
    (hanchor : ∀ anchor ∈ edge.messageAnchor, finiteEndpoint anchor.endpoint = true)
    (iataOf : Int → String) (id : Int) :
    SameEdge (EdgeTable.scanRow iataOf (EdgeTable.rowOf id edge)) edge := by
  constructor
  · show (encodeSegments edge.segments).getD [] = edge.segments
    rw [encodeSegments, if_pos hsegments]
    rfl
  · show encodeMessageAnchor edge.messageAnchor = edge.messageAnchor
    cases hedge : edge.messageAnchor with
    | none => rfl
    | some anchor =>
      rw [encodeMessageAnchor, Option.filter_some, if_pos (hanchor anchor hedge)]

/-- Both readers make what they return of rows of the table. -/
theorem readsBack_insert (hsegments : edge.segments.all finiteSegment = true)
    (hanchor : ∀ anchor ∈ edge.messageAnchor, finiteEndpoint anchor.endpoint = true) :
    ReadsBack (t.insert edge) { edge with id := t.sequence + 1 } := by
  have hrow : ∀ iataOf, ∀ row ∈ (t.insert edge).rows,
      (EdgeTable.scanRow iataOf row).id = t.sequence + 1 →
        SameEdge (EdgeTable.scanRow iataOf row) { edge with id := t.sequence + 1 } := by
    intro iataOf row hmem hid
    rw [eq_rowOf_of_id hmem hid]
    exact sameEdge_scanRow hsegments hanchor iataOf _
  constructor
  · show (encodeSegments edge.segments).isSome = true
    rw [encodeSegments, if_pos hsegments]
    rfl
  · intro iataOf limit now read hread hid
    obtain ⟨row, hmem, rfl⟩ := List.mem_map.mp hread
    exact hrow iataOf row (List.mem_of_mem_filter
      ((List.mem_insertionSort _).mp (List.mem_of_mem_take hmem))) hid
  · intro iataOf hasPath since until_ limit now read hread hid
    obtain ⟨row, hmem, rfl⟩ := List.mem_map.mp hread
    exact hrow iataOf row (List.mem_of_mem_filter
      ((List.mem_insertionSort _).mp (List.mem_of_mem_take hmem))) hid

end Rows

/-! ## Built edges -/

section Built

variable [LiveEnv]

/-- A position on the map is finite. -/
theorem finiteEndpoint_of_valid {endpoint : EdgeEndpoint} (h : validEndpoint endpoint = true) :
    finiteEndpoint endpoint = true := by
  simp only [validEndpoint, validPublicCoords, CoordinateBounds.validPoint, Bool.and_eq_true] at h
  simp only [finiteEndpoint, finite, Bool.and_eq_true]
  tauto

variable {haversineKM : F64 → F64 → F64 → F64 → F64} {config : EdgeConfig} {store : EdgeStore}
  {msg : App.NormalizedMessage} {parsed : Meshcore.ParsedPacket} {resolution : Result}
  {advertNode : Option Node} {observationID : Int} {decodedMessage : DecodedPublicMessage}
  {edge : BuiltEdge}

/-- The distance between the ends of a segment. -/
def distanceOf (haversineKM : F64 → F64 → F64 → F64 → F64) (segment : SignalSegment) : F64 :=
  haversineKM segment.source.lat segment.source.lng segment.target.lat segment.target.lng

omit [LiveEnv] in
/-- Segments carry the signal of the message. -/
theorem signal_of_mem_buildSegments {endpoints : List EdgeEndpoint}
    {segments : List SignalSegment}
    (h : buildSegments haversineKM config msg parsed endpoints = .ok segments) :
    ∀ s ∈ segments, s.snr = msg.snr ∧ s.rssi = msg.rssi ∧
      s.distanceKM = distanceOf haversineKM s := by
  induction endpoints generalizing segments with
  | nil =>
    cases h
    simp
  | cons a rest ih =>
    cases rest with
    | nil =>
      cases h
      simp
    | cons b rest =>
      obtain ⟨-, more, hmore, rfl⟩ := buildSegments_cons h
      intro s hs
      rcases List.mem_cons.mp hs with rfl | hs
      · exact ⟨rfl, rfl, rfl⟩
      · exact ih hmore s hs

/-- Every endpoint of a route is on the map, and there are two at least. -/
theorem routeEndpoints_valid {endpoints : List EdgeEndpoint}
    (h : routeEndpoints store msg parsed resolution advertNode = .ok endpoints) :
    2 ≤ endpoints.length ∧ ∀ e ∈ endpoints, validEndpoint e = true := by
  by_cases hzero : parsed.hopCount = 0
  · obtain ⟨a, observer, hadvert, hobserver, rfl⟩ := routeEndpoints_zero_hop hzero h
    refine ⟨by simp, fun e he => ?_⟩
    rcases List.mem_pair.mp he with rfl | rfl
    · exact (valid_bind_nodeEndpoint hadvert).1
    · exact (observerEndpoint_spec hobserver).1
  · obtain ⟨henough, hpath⟩ := routeEndpoints_hops hzero h
    exact ⟨henough, hpath.valid⟩

theorem messageAnchor_valid {anchor : MessageAnchor}
    (h : messageAnchorEndpoint store msg parsed advertNode decodedMessage = some anchor) :
    validEndpoint anchor.endpoint = true := by
  obtain ⟨-, h⟩ := Option.ite_none_left_eq_some.mp h
  split at h
  · rename_i hadvert
    cases h
    exact (valid_bind_nodeEndpoint hadvert).1
  · split at h
    · rename_i horigin
      cases h
      exact originEndpoint_valid horigin
    · obtain ⟨endpoint, hobserver, rfl⟩ := Option.map_eq_some_iff.mp h
      exact (observerEndpoint_spec hobserver).1

theorem messageAnchor_of_built
    (h : buildEdgeEvent haversineKM config store msg parsed resolution advertNode observationID
      decodedMessage = .ok edge) :
    edge.messageAnchor = messageAnchorEndpoint store msg parsed advertNode decodedMessage := by
  obtain ⟨-, h⟩ := ite_error_eq_ok.mp h
  split at h
  · cases h
  · rename_i endpoints hendpoints
    cases hsegments : buildSegments haversineKM config msg parsed endpoints with
    | error failure =>
      rw [hsegments] at h
      cases h
    | ok segments =>
      rw [hsegments] at h
      rw [← Except.ok.inj h]

/-- The segments of a built edge can be encoded when signal and distances are finite. -/
theorem finite_segments_iff
    (h : buildEdgeEvent haversineKM config store msg parsed resolution advertNode observationID
      decodedMessage = .ok edge) :
    edge.segments.all finiteSegment = true ↔
      msg.snr.all finite = true ∧ msg.rssi.all finite = true ∧
        ∀ s ∈ edge.segments, finite (distanceOf haversineKM s) = true := by
  obtain ⟨endpoints, hendpoints, hsegments⟩ := exists_endpoints h
  obtain ⟨henough, hvalid⟩ := routeEndpoints_valid hendpoints
  obtain ⟨hlength, -, -, hends⟩ := buildSegments_spec hsegments
  have hone : ∀ s ∈ edge.segments, finiteSegment s = true ↔
      finite (distanceOf haversineKM s) = true ∧ msg.snr.all finite = true ∧
        msg.rssi.all finite = true := by
    intro s hs
    obtain ⟨hsnr, hrssi, hdistance⟩ := signal_of_mem_buildSegments hsegments s hs
    have hsource := finiteEndpoint_of_valid (hvalid _ (hends s hs).1)
    have htarget := finiteEndpoint_of_valid (hvalid _ (hends s hs).2.1)
    rw [finiteSegment, hsource, htarget, hsnr, hrssi, hdistance]
    simp [and_assoc]
  have hne : edge.segments ≠ [] := by
    intro hnil
    rw [hnil, List.length_nil] at hlength
    omega
  rw [List.all_eq_true]
  constructor
  · intro hall
    obtain ⟨s, hs⟩ := List.exists_mem_of_ne_nil _ hne
    obtain ⟨-, hsnr, hrssi⟩ := (hone s hs).mp (hall s hs)
    exact ⟨hsnr, hrssi, fun s hs => ((hone s hs).mp (hall s hs)).1⟩
  · rintro ⟨hsnr, hrssi, hdistances⟩ s hs
    exact (hone s hs).mpr ⟨hdistances s hs, hsnr, hrssi⟩

/-- The edge of a normalized message that is stored reads back as it was broadcast, exactly when the
signal of the message and the distances between its endpoints are finite. -/
theorem reads_back_iff (parseNumber : String → Option ℚ) (object : String → Option JsonValue)
    (hrssi : msg.rssi = normalizedRSSI parseNumber object)
    (hsnr : msg.snr = normalizedSNR parseNumber object)
    (hbuilt : buildEdgeEvent haversineKM config store msg parsed resolution advertNode observationID
      decodedMessage = .ok edge)
    (t : EdgeTable) (ingestID : String)
    (hstored : (t.insertEdgeEventCoreTx { edge with ingestID, id := 0 }).2.2 = true) :
    ReadsBack (t.insertEdgeEventCoreTx { edge with ingestID, id := 0 }).1
        (t.insertEdgeEventCoreTx { edge with ingestID, id := 0 }).2.1 ↔
      (normalizedSNR parseNumber object).all finite = true ∧
        (normalizedRSSI parseNumber object).all finite = true ∧
        ∀ s ∈ edge.segments, finite (distanceOf haversineKM s) = true := by
  rw [← hrssi, ← hsnr, ← finite_segments_iff hbuilt]
  unfold EdgeTable.insertEdgeEventCoreTx at hstored ⊢
  split at hstored
  · cases hstored
  · constructor
    · intro hreads
      have hencoded := hreads.encoded
      change (encodeSegments edge.segments).isSome = true at hencoded
      unfold encodeSegments at hencoded
      split at hencoded
      · rename_i hfinite
        exact hfinite
      · cases hencoded
    · intro hfinite
      refine readsBack_insert hfinite fun anchor hanchor => ?_
      have hendpoint := (messageAnchor_of_built hbuilt).symm.trans hanchor
      exact finiteEndpoint_of_valid (messageAnchor_valid hendpoint)

end Built

/-! ## A signal that is not a number -/

attribute [local instance] defaultEnv

/-- A payload with nothing but a signal. -/
def signalPayload (snr : JsonValue) (key : String) : Option JsonValue :=
  if key = "SNR" then some snr else none

/-- A message of a neighbour with this signal. -/
def signalMessage (snr : JsonValue) : App.NormalizedMessage :=
  { publishedBy '2' with
    rssi := normalizedRSSI (fun _ => none) (signalPayload snr)
    snr := normalizedSNR (fun _ => none) (signalPayload snr) }

/-- The edge of the advert that the neighbour heard. -/
def heardAdvert (snr : JsonValue) : Except (String × String) BuiltEdge :=
  buildEdgeEvent (fun _ _ _ _ => .fin 111) defaultConfig hilltops (signalMessage snr) zeroHopAdvert
    noPath advertised 1 { sender := "", text := "" }

def noEdges : EdgeTable := { rows := [], sequence := 0, id_le := by simp }

theorem reads_back_number : ∃ edge, heardAdvert (.number 7) = .ok edge ∧
    ReadsBack (noEdges.insertEdgeEventCoreTx { edge with ingestID := "m:edge", id := 0 }).1
      (noEdges.insertEdgeEventCoreTx { edge with ingestID := "m:edge", id := 0 }).2.1 := by
  have hbuilds : (heardAdvert (.number 7)).isOk = true := by decide +kernel
  cases hbuilt : heardAdvert (.number 7) with
  | error failure =>
    rw [hbuilt] at hbuilds
    cases hbuilds
  | ok edge =>
    refine ⟨edge, rfl, (reads_back_iff (fun _ => none) (signalPayload (.number 7)) rfl rfl hbuilt
      noEdges "m:edge" rfl).mpr ⟨by decide, by decide, fun _ _ => rfl⟩⟩

/-- The text `NaN` is accepted, and the segments are stored as the empty text. -/
theorem nan_not_read_back : ¬ ∀ (parseNumber : String → Option ℚ)
    (object : String → Option JsonValue) (haversineKM : F64 → F64 → F64 → F64 → F64)
    (config : EdgeConfig) (store : EdgeStore) (msg : App.NormalizedMessage)
    (parsed : Meshcore.ParsedPacket) (resolution : Result) (advertNode : Option Node)
    (observationID : Int) (decodedMessage : DecodedPublicMessage) (edge : BuiltEdge)
    (t : EdgeTable) (ingestID : String),
    msg.rssi = normalizedRSSI parseNumber object → msg.snr = normalizedSNR parseNumber object →
    buildEdgeEvent haversineKM config store msg parsed resolution advertNode observationID
      decodedMessage = .ok edge →
    (t.insertEdgeEventCoreTx { edge with ingestID, id := 0 }).2.2 = true →
    ReadsBack (t.insertEdgeEventCoreTx { edge with ingestID, id := 0 }).1
      (t.insertEdgeEventCoreTx { edge with ingestID, id := 0 }).2.1 := by
  intro h
  have hempty : (match heardAdvert (.text "NaN") with
      | .ok edge => (encodeSegments edge.segments).isNone
      | .error _ => false) = true := by decide +kernel
  cases hbuilt : heardAdvert (.text "NaN") with
  | error failure =>
    rw [hbuilt] at hempty
    cases hempty
  | ok edge =>
    rw [hbuilt] at hempty
    have hencoded := (h (fun _ => none) (signalPayload (.text "NaN")) _ _ _ _ _ _ _ _ _ edge noEdges
      "m:edge" rfl rfl hbuilt rfl).encoded
    change (encodeSegments edge.segments).isSome = true at hencoded
    rw [Option.isNone_iff_eq_none.mp hempty] at hencoded
    cases hencoded

end CartoLive.Theorems.EdgeReadBack
