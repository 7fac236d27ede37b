import CartoLive.Api.PublicEvents
import CartoLive.Lib.Ascending
import CartoLive.Live.Public
import CartoLive.Web.LiveClient
import CartoLive.Web.Recovered

/-!
# The effect of a recovered event

A live event reaches the state of the page as it was sent; a recovered one goes through the
sanitizers. The two have the same effect on nodes, activity, routes and packet count exactly
when the texts of the event that show there have nothing to trim and its payload type has a
name.
-/

namespace CartoLive.Theorems.RecoveredEffect

open CartoLive.Go CartoLive.Live CartoLive.Lib CartoLive.Store CartoLive.Api CartoLive.Web

/-! ## What the worker commits -/

theorem trimmed_nodeID_publicEndpoint (endpoint : EdgeEndpoint) (index : PathHash3Index) :
    Trimmed (publicEndpoint endpoint index).nodeID := by
  simp only [publicEndpoint]
  exact (named_publicNodeID endpoint.nodeID).2

theorem sanitizeResolutionBucket_publicResolutionBucket (packet : PacketObservation)
    (hasRoute : Bool) :
    sanitizeResolutionBucket (publicResolutionBucket packet hasRoute) =
      publicResolutionBucket packet hasRoute := by
  unfold publicResolutionBucket
  dsimp only
  split
  · decide
  split
  · decide
  split
  · decide
  split
  · decide
  split
  · decide
  split <;> decide

section Built

variable [LiveEnv]

/-- The location that an observation is given on the live path. -/
def Located (packet : PacketObservation) (location : Option PublicObserverLocation) : Prop :=
  ∃ node observer, location = publicObserverLocation node observer packet

/-- The records that the worker commits: nodes with their regions filtered, and observations,
edges and pulses as they are built; the distances of an edge are numbers. -/
inductive Built : PublicData → Prop
  | node {node : Node} {item : PublicNode} (iatasHeardIn regionsHeardIn : List String)
      (hitem : publicNodeFromNode node = some item) :
      Built (.node { item with iatasHeardIn, regionsHeardIn })
  | packet (packet : PacketObservation) (routeIDs : List String)
      {location : Option PublicObserverLocation} (hlocation : Located packet location) :
      Built (.activity (publicActivityFromPacket packet routeIDs location))
  | edge {edge : EdgeEvent} {item : PublicActivity} (hitem : publicActivityFromEdge edge = some item) :
      Built (.activity item)
  | pulse {edge : EdgeEvent} {item : PublicRoutePulse} (index : PathHash3Index)
      (hitem : publicRoutePulseFromEdge edge index = some item)
      (hdistance : ∀ segment ∈ edge.segments, Finite segment.distanceKM) : Built (.pulse item)

theorem soundNode_of_built {item : PublicNode} (h : Built (.node item)) : SoundNode item := by
  cases h with
  | @node node item iatas regions hitem =>
    unfold publicNodeFromNode at hitem
    split at hitem
    · cases hitem
    · rename_i hmappable
      split at hitem
      · rename_i latitude longitude hlat hlng
        cases hitem
        have hcoords : (coordinateInclusion node.latitude node.longitude
            mapIncludeNodePositionUsed).mappable = true := by
          unfold publicNodeMapInclusion at hmappable
          split at hmappable
          · simp at hmappable
          · simpa using hmappable
        obtain ⟨x, y, hx, hy, hvalid⟩ := coordinateInclusion_mappable hcoords
        rw [hlat] at hx
        rw [hlng] at hy
        cases hx
        cases hy
        obtain ⟨hfinite, hfinite'⟩ := finite_of_validPublicCoords hvalid
        have hid := named_publicNodeID node.nodeID
        have hrole := normalizeNodeRole_normalizeRole node.role
        generalize displayLabel node.name node.role = label, publicNodeID node.nodeID = id,
          normalizeRole node.role = role at hid hrole ⊢
        exact ⟨hid, hrole, hfinite, hfinite'⟩
      · cases hitem

theorem soundEndpoint_publicEndpoint {endpoint : EdgeEndpoint} (h : validEndpoint endpoint = true)
    (index : PathHash3Index) : SoundEndpoint (publicEndpoint endpoint index) := by
  have hpath := trimmed_publicEndpointPathHash3 endpoint index
  have hid := named_publicNodeID endpoint.nodeID
  obtain ⟨hlat, hlng⟩ := finite_of_validPublicCoords h
  unfold publicEndpoint
  generalize publicEndpointPathHash3 endpoint index = path, publicNodeID endpoint.nodeID = id
    at hpath hid ⊢
  exact ⟨hid, hpath, hlat, hlng⟩

theorem mem_mappableSegments {edge : EdgeEvent} {segment : EdgeSegment}
    (h : segment ∈ mappableSegments edge) :
    segment ∈ edge.segments ∧ validEndpoint segment.source = true ∧
      validEndpoint segment.target = true := by
  obtain ⟨hmem, hvalid⟩ := List.mem_filter.mp h
  rw [Bool.and_eq_true] at hvalid
  exact ⟨hmem, hvalid⟩

/-- An anchor that was placed at an endpoint. -/
theorem anchor_of_endpoint {endpoint : PublicRouteEndpoint} {kind : String}
    {anchor : PublicMessageAnchor} (hnodeID : Trimmed endpoint.nodeID) (hkind : Trimmed kind)
    (h : messageAnchorFromEndpointKind endpoint kind = some anchor) :
    Trimmed anchor.kind ∧ Trimmed anchor.nodeID ∧ Finite anchor.lat ∧ Finite anchor.lng := by
  unfold messageAnchorFromEndpointKind at h
  split at h
  · cases h
  · rename_i hvalid
    rw [Option.some.injEq] at h
    subst h
    obtain ⟨hlat, hlng⟩ := finite_of_validPublicCoords (by simpa using hvalid)
    refine ⟨hkind, ?_, hlat, hlng⟩
    dsimp only
    split
    · exact hnodeID
    · exact trimmed_empty

theorem anchor_of_first {segments : List PublicRouteSegment} {anchor : PublicMessageAnchor}
    (hsegments : ∀ segment ∈ segments, Trimmed segment.source.nodeID)
    (h : (segments.head?.map PublicRouteSegment.source).bind
      (messageAnchorFromEndpointKind · "source") = some anchor) :
    Trimmed anchor.kind ∧ Trimmed anchor.nodeID ∧ Finite anchor.lat ∧ Finite anchor.lng := by
  obtain ⟨endpoint, hendpoint, hanchor⟩ := Option.bind_eq_some_iff.mp h
  obtain ⟨segment, hsegment, rfl⟩ := Option.map_eq_some_iff.mp hendpoint
  exact anchor_of_endpoint (hsegments segment (List.mem_of_mem_head? hsegment)) (by decide)
    hanchor

theorem anchor_of_edge {edge : EdgeEvent} {segments : List PublicRouteSegment}
    {anchor : PublicMessageAnchor}
    (hsegments : ∀ segment ∈ segments, Trimmed segment.source.nodeID)
    (h : messageAnchorFromEdge edge segments = some anchor) :
    Trimmed anchor.kind ∧ Trimmed anchor.nodeID ∧ Finite anchor.lat ∧ Finite anchor.lng := by
  unfold messageAnchorFromEdge at h
  cases hplaced : edge.messageAnchor with
  | none =>
    simp only [hplaced] at h
    exact anchor_of_first hsegments h
  | some placed =>
    simp only [hplaced] at h
    generalize toLower (trimSpace placed.kind) = kind at h
    by_cases hvalid : validEndpoint placed.endpoint = true
    · rw [if_pos hvalid] at h
      refine anchor_of_endpoint (trimmed_nodeID_publicEndpoint _ _) ?_ h
      split
      · rename_i hkind
        rw [hkind]
        decide
      · decide
    · rw [if_neg hvalid] at h
      exact anchor_of_first hsegments h

/-- A pulse of an edge. -/
theorem pulse_of_edge {edge : EdgeEvent} {index : PathHash3Index} {item : PublicRoutePulse}
    (h : publicRoutePulseFromEdge edge index = some item) :
    item.id = "pulse-" ++ toString edge.id ∧ item.segments ≠ [] ∧
      item.segments = (mappableSegments edge).map (publicSegment index) ∧
      ∀ anchor, item.messageAnchor = some anchor →
        Trimmed anchor.kind ∧ Trimmed anchor.nodeID ∧ Finite anchor.lat ∧ Finite anchor.lng := by
  unfold publicRoutePulseFromEdge at h
  dsimp only at h
  generalize publicMessageText edge.messageText = text at h
  split at h
  · cases h
  · rename_i hne
    rw [Option.some.injEq] at h
    subst h
    refine ⟨rfl, hne, rfl, fun anchor hanchor => ?_⟩
    dsimp only at hanchor
    split at hanchor
    · cases hanchor
    · refine anchor_of_edge (fun segment hsegment => ?_) hanchor
      obtain ⟨stored, -, rfl⟩ := List.mem_map.mp hsegment
      exact trimmed_nodeID_publicEndpoint _ _

theorem finite_of_located {packet : PacketObservation} {location : PublicObserverLocation}
    (h : Located packet (some location)) :
    Finite location.lat ∧ Finite location.lng := by
  obtain ⟨node, observer, hplace⟩ := h
  replace hplace := hplace.symm
  unfold publicObserverLocation at hplace
  split at hplace
  · rename_i found hfound
    rw [Option.some.injEq] at hplace
    subst hplace
    obtain ⟨row, -, hrow⟩ := Option.bind_eq_some_iff.mp hfound
    obtain ⟨lat, lng, -, -, hvalid, rfl⟩ := publicObserverLocationFromNode_eq_some hrow
    exact finite_of_validPublicCoords hvalid
  · obtain ⟨row, -, hrow⟩ := Option.bind_eq_some_iff.mp hplace
    obtain ⟨lat, lng, -, -, hvalid, rfl⟩ := publicObserverLocationFromObserver_eq_some hrow
    exact finite_of_validPublicCoords hvalid

/-- An anchor at the place of an observer. -/
theorem anchor_of_observer {location : PublicObserverLocation} {anchor : PublicMessageAnchor}
    (h : messageAnchorFromObserver location = some anchor) :
    Trimmed anchor.kind ∧ Trimmed anchor.nodeID ∧ Finite anchor.lat ∧ Finite anchor.lng := by
  unfold messageAnchorFromObserver at h
  split at h
  · cases h
  · rename_i hvalid
    rw [Option.some.injEq] at h
    subst h
    have hkind : Trimmed "observer" := by decide
    exact ⟨hkind, trimmed_empty, finite_of_validPublicCoords (by simpa using hvalid)⟩

theorem soundActivity_of_packet {packet : PacketObservation} {routeIDs : List String}
    {location : Option PublicObserverLocation} (h : Located packet location) :
    SoundActivity (publicActivityFromPacket packet routeIDs location) := by
  unfold publicActivityFromPacket
  generalize uniqueSorted routeIDs = ids, publicMessageText packet.messageText = text,
    publicMessageSender packet.messageSender = sender
  dsimp only
  refine ⟨named_numbered (printed_of_all (by decide)) (by decide) packet.id, rfl, ?_,
    sanitizeResolutionBucket_publicResolutionBucket _ _, ?_, ?_⟩
  · dsimp only
    split
    · decide
    split <;> decide
  · intro place hplace
    dsimp only at hplace
    split at hplace
    · cases hplace
    · subst hplace
      exact finite_of_located h
  · intro anchor hanchor
    dsimp only at hanchor
    split at hanchor
    · cases hanchor
    · obtain ⟨place, -, hplace⟩ := Option.bind_eq_some_iff.mp hanchor
      exact anchor_of_observer hplace

theorem soundActivity_of_edge {edge : EdgeEvent} {item : PublicActivity}
    (h : publicActivityFromEdge edge = some item) : SoundActivity item := by
  obtain ⟨pulse, hpulse, rfl⟩ := Option.map_eq_some_iff.mp h
  obtain ⟨-, -, -, hanchor⟩ := pulse_of_edge hpulse
  generalize publicMessageText edge.messageText = text,
    publicMessageSender edge.messageSender = sender
  refine ⟨named_numbered (printed_of_all (by decide)) (by decide) edge.id, rfl, ?_, ?_, ?_, hanchor⟩
  · dsimp only
    decide
  · dsimp only
    decide
  · intro place hplace
    cases hplace

theorem soundActivity_of_built {item : PublicActivity} (h : Built (.activity item)) :
    SoundActivity item := by
  cases h with
  | packet packet routeIDs hlocation => exact soundActivity_of_packet hlocation
  | edge hitem => exact soundActivity_of_edge hitem

theorem soundPulse_of_built {item : PublicRoutePulse} (h : Built (.pulse item)) :
    Named item.id ∧ item.segments ≠ [] ∧ ∀ segment ∈ item.segments, SoundSegment segment := by
  cases h with
  | pulse index hitem hdistance =>
    obtain ⟨hid, hne, hsegments, -⟩ := pulse_of_edge hitem
    refine ⟨hid ▸ named_numbered (printed_of_all (by decide)) (by decide) _, hne, fun segment hsegment => ?_⟩
    rw [hsegments] at hsegment
    obtain ⟨stored, hstored, rfl⟩ := List.mem_map.mp hsegment
    obtain ⟨hmem, hsource, htarget⟩ := mem_mappableSegments hstored
    exact ⟨named_publicRouteID _ _, soundEndpoint_publicEndpoint hsource index,
      soundEndpoint_publicEndpoint htarget index, hdistance stored hmem⟩

/-! ## The two deliveries -/

/-- The type under which the worker commits a record. -/
def eventType : PublicData → String
  | .node _ => "nodeUpdate"
  | .activity _ => "activity"
  | .pulse _ => "routePulse"

/-- The event that the worker inserts for a record. -/
def committedEvent (data : PublicData) (now : Int) (dedupeKey : String) (receivedAt : Int) :
    PublicEvent :=
  { publicEventFromData (eventType data) data now with dedupeKey, receivedAt }

/-- `broadcastCommittedPublicEvent`: what a browser gets of a stored event. -/
def liveMessage (hubSeq serverTime : Int) (stored : PublicEvent) : LiveMessage :=
  (eventMessage hubSeq { stored with data := publicEventDataWithSeq stored.data stored.seq }
    serverTime).parsed

/-- A record of the worker that was stored as one event, and the event as an answer of the
server has it while it is retained. -/
structure Delivered (data : PublicData) (stored read : PublicEvent) : Prop where
  built : Built data
  committed : ∃ (t t' : PublicEventTable) (now created receivedAt : Int) (dedupeKey : String),
    0 < now ∧ t.insertPublicEventOnceTx now (committedEvent data created dedupeKey receivedAt) =
      (t', stored, true)
  answered : ∃ (server : Server) (now : Int) (query : PublicEventsQuery) (bounds : Int × Int)
    (later : PublicEventTable) (response : PublicEventsResponse),
    stored ∈ later.rows ∧ publicEvents server now query bounds later = .ok response ∧
      read ∈ response.events ∧ read.seq = stored.seq

variable {data : PublicData} {stored read : PublicEvent}

omit [LiveEnv] in
theorem type_committedEvent (data : PublicData) (now : Int) (dedupeKey : String)
    (receivedAt : Int) :
    trimSpace (committedEvent data now dedupeKey receivedAt).type = eventType data := by
  have htrimmed : trimSpace (trimSpace (eventType data)) = eventType data := by
    cases data <;> simp only [eventType] <;> decide
  rw [← htrimmed]
  unfold committedEvent publicEventFromData
  cases data <;> rw [htrimmed]

omit [LiveEnv] in
theorem data_committedEvent (data : PublicData) (now : Int) (dedupeKey : String)
    (receivedAt : Int) : (committedEvent data now dedupeKey receivedAt).data = data := by
  unfold committedEvent publicEventFromData
  cases data <;> rfl

/-- What the store keeps of a record. -/
theorem Delivered.stored_fields (h : Delivered data stored read) :
    stored.type = eventType data ∧ stored.data = data ∧ 0 < stored.receivedAt ∧
      0 < stored.seq := by
  obtain ⟨t, t', now, created, receivedAt, dedupeKey, hnow, hinsert⟩ := h.committed
  obtain ⟨-, -, -, -, later, -, hrow, -⟩ := h.answered
  have hpos := (later.bounded stored hrow).1
  have htype := type_committedEvent data created dedupeKey receivedAt
  have hdata := data_committedEvent data created dedupeKey receivedAt
  generalize committedEvent data created dedupeKey receivedAt = event at hinsert htype hdata
  rcases t.insertPublicEventOnceTx_cases now event with ⟨found, hfound⟩ | hnew
  · rw [hfound] at hinsert
    simp at hinsert
  · rw [hnew] at hinsert
    obtain rfl := (Prod.mk.inj (Prod.mk.inj hinsert).2).1
    refine ⟨htype, hdata, ?_, hpos⟩
    unfold PublicEventTable.normalizeEvent
    dsimp only
    split <;> omega

/-- The answer has the row of the table. -/
theorem Delivered.read_eq (h : Delivered data stored read) :
    read = PublicEventTable.scanPublicEvent stored := by
  obtain ⟨server, now, query, bounds, later, response, hrow, hanswer, hread, hseq⟩ := h.answered
  unfold publicEvents at hanswer
  split at hanswer
  · cases hanswer
  dsimp only at hanswer
  split at hanswer
  · cases hanswer
    cases hread
  · cases hanswer
    have hlisted := (List.mem_filter.mp hread).1
    obtain ⟨row, hmem, rfl⟩ := List.mem_map.mp (List.mem_of_mem_take hlisted)
    have hkept := (List.mem_filter.mp (List.mem_of_mem_take hmem)).1
    have hrows : Ascending PublicEvent.seq later.rows := later.ascending
    rw [hrows.eq_of_key_eq hkept hrow hseq]

theorem Delivered.liveMessage_eq (h : Delivered data stored read) (hubSeq serverTime : Int) :
    liveMessage hubSeq serverTime stored =
      { type := .event, seq := some stored.seq, latestSeq := omitZero hubSeq
        serverTime := omitZero serverTime, receivedAt := some stored.receivedAt
        data := parsedData (eventType data) (publicEventDataWithSeq data stored.seq) } := by
  obtain ⟨htype, hdata, hreceived, hseq⟩ := h.stored_fields
  unfold liveMessage eventMessage PublicLiveEnvelope.parsed omitZero
  simp only [htype, hdata, Option.bind_some]
  rw [if_neg hseq.ne', if_neg hreceived.ne']

/-- The reducer gets the sanitized record in an envelope like that of the live one. -/
theorem Delivered.sanitized (h : Delivered data stored read) {item : LiveData}
    (hitem : sanitizePublicEventData (eventType data) data = some (some item)) :
    ∃ recovered, sanitizePublicEvent read = some recovered ∧ ∀ state,
      applyPublicEvents state [recovered] = applyPublicEnvelopes state
        [{ type := .event, seq := some stored.seq, latestSeq := some stored.seq
           serverTime := some stored.receivedAt, receivedAt := some stored.receivedAt
           data := some item }] false := by
  obtain ⟨htype, hdata, hreceived, hseq⟩ := h.stored_fields
  have hname : sanitizeString (eventType data) "" = eventType data := by
    cases data <;> simp only [eventType] <;> decide
  have hsome : eventType data ≠ "" := by
    cases data <;> simp only [eventType] <;> decide
  rw [h.read_eq]
  unfold sanitizePublicEvent PublicEventTable.scanPublicEvent
  dsimp only
  rw [htype, hdata, hname, hitem, if_neg (not_or.mpr ⟨by omega, hsome⟩), if_neg hreceived.ne']
  exact ⟨_, rfl, fun state => rfl⟩

/-- The texts of a record that show on the page have nothing to trim, and its labels and
its payload type are not empty. -/
def Clean : PublicData → Prop
  | .node item => Named item.label
  | .activity item => CleanActivity item
  | .pulse item => CleanPulse item

/-- The recovered event is not dropped and always has the effect of the live one. -/
def SameEffect (stored read : PublicEvent) : Prop :=
  ∃ recovered, sanitizePublicEvent read = some recovered ∧
    ∀ (state : AppState) (hubSeq serverTime : Int),
      effect (applyPublicEvents state [recovered]) =
        effect (applyPublicEnvelopes state [liveMessage hubSeq serverTime stored] false)

omit [LiveEnv] in
/-- A page that has just started has seen nothing. -/
theorem not_hasSeen_emptyState (message : LiveMessage) : ¬ emptyState.hasSeen message = true := by
  unfold AppState.hasSeen emptyState
  cases message.seq <;> simp

theorem sameEffect_node_iff {item : PublicNode} (h : Delivered (.node item) stored read) :
    SameEffect stored read ↔ Named item.label := by
  obtain ⟨node, hnode, hid, hlabel⟩ := sanitizePublicStateNode_spec (soundNode_of_built h.built)
  have hdata : sanitizePublicEventData (eventType (.node item)) (.node item) =
      some (some (.nodeUpdate node)) := by
    simp only [sanitizePublicEventData, eventType, hnode]
    rfl
  obtain ⟨recovered, hrecovered, happly⟩ := h.sanitized hdata
  have hparsed : parsedData (eventType (.node item)) (publicEventDataWithSeq (.node item) stored.seq)
      = some (.nodeUpdate { item with seq := stored.seq }) := by
    simp only [parsedData, eventType, publicEventDataWithSeq]
    rfl
  constructor
  · rintro ⟨other, hother, hsame⟩
    obtain rfl := Option.some.inj (hrecovered.symm.trans hother)
    have heffect := hsame emptyState 0 0
    rw [happly, h.liveMessage_eq, hparsed, effect_nodeUpdate rfl rfl, effect_nodeUpdate rfl rfl,
      if_neg (not_hasSeen_emptyState _), if_neg (not_hasSeen_emptyState _)] at heffect
    have hnodes := congrArg Effect.nodes heffect
    exact hlabel.mp (List.cons.inj hnodes).1
  · intro hclean
    refine ⟨recovered, hrecovered, fun state hubSeq serverTime => ?_⟩
    rw [happly, h.liveMessage_eq, hparsed, effect_nodeUpdate rfl rfl, effect_nodeUpdate rfl rfl]
    have hnumber : unnumbered node = unnumbered { item with seq := stored.seq } :=
      hlabel.mpr hclean
    rw [hnumber, hid]
    rfl

theorem sameEffect_activity_iff {item : PublicActivity}
    (h : Delivered (.activity item) stored read) :
    SameEffect stored read ↔ CleanActivity item := by
  obtain ⟨activity, hactivity, hclean⟩ :=
    sanitizePublicStateActivity_spec (soundActivity_of_built h.built)
  have hdata : sanitizePublicEventData (eventType (.activity item)) (.activity item) =
      some (some (.activity activity)) := by
    simp only [sanitizePublicEventData, eventType, hactivity]
    rfl
  obtain ⟨recovered, hrecovered, happly⟩ := h.sanitized hdata
  have hparsed : parsedData (eventType (.activity item))
      (publicEventDataWithSeq (.activity item) stored.seq) =
        some (.activity { item with seq := stored.seq, receivedAt := none, displayAt := none }) := by
    simp only [parsedData, eventType, publicEventDataWithSeq]
    rfl
  -- the envelope's times and sequence take the place of the record's own
  have hlive : ∀ message : LiveMessage, message.seq = some stored.seq →
      message.receivedAt = some stored.receivedAt →
      LiveActivity.withEnvelopeTiming
        { item with seq := stored.seq, receivedAt := none, displayAt := none } message =
          timed item stored.seq stored.receivedAt := by
    intro message hseq hreceived
    simp only [LiveActivity.withEnvelopeTiming, LiveMessage.timing, hseq, hreceived, timed]
    rfl
  have hback : ∀ message : LiveMessage, message.seq = some stored.seq →
      message.receivedAt = some stored.receivedAt →
      activity.withEnvelopeTiming message =
        timed activity.toPublicActivity stored.seq stored.receivedAt := by
    intro message hseq hreceived
    simp only [LiveActivity.withEnvelopeTiming, LiveMessage.timing, hseq, hreceived, timed]
    rfl
  have hsame := hclean stored.seq stored.receivedAt
  constructor
  · rintro ⟨other, hother, heffects⟩
    obtain rfl := Option.some.inj (hrecovered.symm.trans hother)
    have heffect := heffects emptyState 0 0
    rw [happly, h.liveMessage_eq, hparsed, effect_activity rfl rfl, effect_activity rfl rfl,
      if_neg (not_hasSeen_emptyState _), if_neg (not_hasSeen_emptyState _), hlive _ rfl rfl,
      hback _ rfl rfl, if_neg (by simp [emptyState]), if_neg (by simp [emptyState])] at heffect
    have hactivities := congrArg Effect.activity heffect
    exact hsame.mp (List.cons.inj hactivities).1
  · intro hitem
    refine ⟨recovered, hrecovered, fun state hubSeq serverTime => ?_⟩
    rw [happly, h.liveMessage_eq, hparsed, effect_activity rfl rfl, effect_activity rfl rfl,
      hlive _ rfl rfl, hback _ rfl rfl, hsame.mpr hitem]
    rfl

/-- What route records take from a pulse. -/
structure SameRecords (pulse : LiveRoutePulse) (item : PublicRoutePulse) : Prop where
  heardAt : pulse.heardAt = item.heardAt
  payloadTypeName : pulse.payloadTypeName = item.payloadTypeName
  segments : pulse.segments = item.segments

omit [LiveEnv] in
theorem sameRecords_withEnvelopeTiming (pulse : LiveRoutePulse) (message : LiveMessage) :
    SameRecords (pulse.withEnvelopeTiming message) pulse.toPublicRoutePulse := by
  unfold LiveRoutePulse.withEnvelopeTiming
  exact ⟨rfl, rfl, rfl⟩

omit [LiveEnv] in
/-- A pulse and the sanitized one leave the same records on every page if and only if the
pulse is clean. -/
theorem sameTouched_iff {item : PublicRoutePulse} {live pulse back : LiveRoutePulse}
    (hsegments : ∀ segment ∈ item.segments, SoundSegment segment) (hne : item.segments ≠ [])
    (hpulse : sanitizePublicStatePulse item = some pulse) (hlive : SameRecords live item)
    (hback : SameRecords back pulse.toPublicRoutePulse) :
    (CleanPulse item → touchedRoutes [back] = touchedRoutes [live]) ∧
      ((touchedRoutes [back]).map touchedShape = (touchedRoutes [live]).map touchedShape →
        CleanPulse item) := by
  obtain ⟨hheard, hname, hcleaned⟩ : pulse.heardAt = item.heardAt ∧
      pulse.payloadTypeName = sanitizeString item.payloadTypeName "Message" ∧
      pulse.segments = item.segments.map cleanedSegment := by
    unfold sanitizePublicStatePulse at hpulse
    rw [filterMap_sanitizePublicStateSegment hsegments] at hpulse
    dsimp only at hpulse
    generalize item.messageAnchor.bind sanitizePublicMessageAnchor = anchor at hpulse
    split at hpulse
    · cases hpulse
    · rw [Option.some.injEq] at hpulse
      subst hpulse
      dsimp only
      exact ⟨rfl, rfl, rfl⟩
  have hsound : ∀ segment ∈ live.segments, SoundSegment segment := by
    rw [hlive.segments]
    exact hsegments
  have hbackHeard : back.heardAt = live.heardAt := by
    rw [hback.heardAt, hlive.heardAt, hheard]
  have hbackName : back.payloadTypeName = sanitizeString live.payloadTypeName "Message" := by
    rw [hback.payloadTypeName, hlive.payloadTypeName, hname]
  have hbackSegments : back.segments = live.segments.map cleanedSegment := by
    rw [hback.segments, hlive.segments, hcleaned]
  constructor
  · rintro ⟨hpayload, hfirst⟩
    rw [← hlive.payloadTypeName] at hpayload
    rw [← hlive.segments] at hfirst
    exact touchedRoutes_of_clean hsound hbackHeard hbackName hbackSegments ⟨hpayload, hfirst⟩
  · intro hshapes
    obtain ⟨hpayload, hfirst⟩ := clean_of_shapes hsound (by rw [hlive.segments]; exact hne)
      hbackHeard hbackName hbackSegments hshapes
    rw [hlive.payloadTypeName] at hpayload
    rw [hlive.segments] at hfirst
    exact ⟨hpayload, hfirst⟩

theorem sameEffect_pulse_iff {item : PublicRoutePulse}
    (h : Delivered (.pulse item) stored read) : SameEffect stored read ↔ CleanPulse item := by
  obtain ⟨hid, hne, hsegments⟩ := soundPulse_of_built h.built
  obtain ⟨pulse, hpulse, hpulseID⟩ :
      ∃ pulse, sanitizePublicStatePulse item = some pulse ∧ pulse.id = item.id := by
    unfold sanitizePublicStatePulse
    rw [sanitizeString_of_named hid]
    exact ⟨_, if_neg hid.1, rfl⟩
  have hdata : sanitizePublicEventData (eventType (.pulse item)) (.pulse item) =
      some (some (.routePulse pulse)) := by
    simp only [sanitizePublicEventData, eventType, hpulse]
    rfl
  obtain ⟨recovered, hrecovered, happly⟩ := h.sanitized hdata
  have hparsed : ∃ live : LiveRoutePulse, live.id = item.id ∧
      (∀ message, SameRecords (live.withEnvelopeTiming message) item) ∧
      parsedData (eventType (.pulse item)) (publicEventDataWithSeq (.pulse item) stored.seq) =
        some (.routePulse live) := by
    refine ⟨{ item with seq := stored.seq, receivedAt := none, displayAt := none }, rfl,
      fun message => ?_, ?_⟩
    · obtain ⟨hheard, hname, hsegs⟩ := sameRecords_withEnvelopeTiming
        { item with seq := stored.seq, receivedAt := none, displayAt := none } message
      exact ⟨hheard, hname, hsegs⟩
    · simp only [parsedData, eventType, publicEventDataWithSeq]
      rfl
  obtain ⟨live, hliveID, hrecords, hparsed⟩ := hparsed
  have hiff := fun message message' => sameTouched_iff hsegments hne hpulse (hrecords message)
    (sameRecords_withEnvelopeTiming pulse message')
  constructor
  · rintro ⟨other, hother, heffects⟩
    obtain rfl := Option.some.inj (hrecovered.symm.trans hother)
    have heffect := heffects emptyState 0 0
    rw [happly, h.liveMessage_eq, hparsed, effect_routePulse rfl rfl, effect_routePulse rfl rfl,
      if_neg (not_or.mpr ⟨not_hasSeen_emptyState _, by simp [emptyState]⟩),
      if_neg (not_or.mpr ⟨not_hasSeen_emptyState _, by simp [emptyState]⟩)] at heffect
    have hroutes := congrArg (fun e => e.routes.map shape) heffect
    dsimp only at hroutes
    rw [shape_upsert_empty, shape_upsert_empty] at hroutes
    exact (hiff _ _).2 hroutes
  · intro hitem
    refine ⟨recovered, hrecovered, fun state hubSeq serverTime => ?_⟩
    rw [happly, h.liveMessage_eq, hparsed, effect_routePulse rfl rfl, effect_routePulse rfl rfl]
    unfold upsertPulseRoutesBatch
    rw [(hiff _ _).1 hitem, hpulseID, hliveID]
    rfl

/-- A recovered event has the effect of the live one on every page if and only if its record
is clean. -/
theorem recovered_effect_iff (h : Delivered data stored read) :
    SameEffect stored read ↔ Clean data := by
  cases data with
  | node item => exact sameEffect_node_iff h
  | activity item => exact sameEffect_activity_iff h
  | pulse item => exact sameEffect_pulse_iff h

end Built

/-! ## A name that ends on a blank -/

section Sample

attribute [local instance] defaultEnv

/-- A repeater in Ottawa. -/
def namedNode (name : String) : Node :=
  { nodeID := "AB", publicKey := "AB", name, role := "repeater", latitude := some (.fin 45)
    longitude := some (.fin (-75)), lastSeen := 5, firstSeen := 5, iatasHeardIn := ["YOW"]
    observationCount := 1 }

def namedPublicNode (name : String) : PublicNode :=
  { seq := 0, id := publicNodeID "AB", label := displayLabel name "repeater", role := "repeater"
    isObserver := false, latitude := .fin 45, longitude := .fin (-75), lastSeen := 5, firstSeen := 5
    iatasHeardIn := ["YOW"], regionsHeardIn := ["YOW"], activityCount := 1 }

/-- The table with an event before that of the node. -/
def beforeNode : PublicEventTable :=
  (PublicEventTable.empty.insertPublicEventOnceTx 4
    (committedEvent (.activity (PublicActivity.sample "activity-1" 4)) 4 "packet" 4)).1

def withNode (name : String) : PublicEventTable × PublicEvent × Bool :=
  beforeNode.insertPublicEventOnceTx 5
    (committedEvent (.node (namedPublicNode name)) 5 "node" 5)

def nodeStored (name : String) : PublicEvent := (withNode name).2.1

/-- What a browser that has the first event is answered. -/
def answerFrom (t : PublicEventTable) : PublicEventsResponse :=
  pageResponse { publicEventsEnabled := true, publicAllowsIATA := none } 9 (1, 2) 1
    (t.listPublicEventsAfter (eventsFilter (recoveryQuery 1 10)))

theorem publicEvents_answerFrom (t : PublicEventTable) :
    publicEvents { publicEventsEnabled := true, publicAllowsIATA := none } 9 (recoveryQuery 1 10)
      (1, 2) t = .ok (answerFrom t) := by
  unfold publicEvents answerFrom
  rw [if_neg (by decide), if_neg (by decide)]
  rfl

theorem publicNodeFromNode_namedNode (name : String) :
    publicNodeFromNode (namedNode name) = some (namedPublicNode name) := by
  have hmappable :
      (publicNodeMapInclusion (namedNode name) (newPublicIATAFilter [])).mappable = true := by
    have hsame : publicNodeMapInclusion (namedNode name) (newPublicIATAFilter []) =
        publicNodeMapInclusion (namedNode "") (newPublicIATAFilter []) := by
      unfold publicNodeMapInclusion
      rfl
    rw [hsame]
    decide +kernel
  have hrole : normalizeRole "repeater" = "repeater" := by decide
  unfold publicNodeFromNode
  rw [hmappable]
  simp only [namedNode, namedPublicNode, hrole]
  rfl

theorem delivered_namedNode {name : String} (hnew : (withNode name).2.2 = true)
    (hrow : nodeStored name ∈ (withNode name).1.rows)
    (hread : PublicEventTable.scanPublicEvent (nodeStored name) ∈
      (answerFrom (withNode name).1).events) :
    Delivered (.node (namedPublicNode name)) (nodeStored name)
      (PublicEventTable.scanPublicEvent (nodeStored name)) := by
  have hinsert : withNode name = ((withNode name).1, nodeStored name, true) :=
    Prod.ext rfl (Prod.ext rfl hnew)
  have hbuilt := Built.node ["YOW"] ["YOW"] (publicNodeFromNode_namedNode name)
  simp only [namedPublicNode] at hbuilt
  refine ⟨?_, ?_, ?_⟩
  · simp only [namedPublicNode]
    exact hbuilt
  · refine ⟨beforeNode, (withNode name).1, 5, 5, 5, "node", by decide, ?_⟩
    exact hinsert
  · exact ⟨_, _, _, _, (withNode name).1, _, hrow, publicEvents_answerFrom _, hread, rfl⟩

/-- A name with a byte order mark, which is white space to the browser alone. -/
def markedName : String := String.ofList ['H', 'i', 'l', 'l', Char.ofNat 0xFEFF]

/-- The live label keeps the mark at its end, the recovered one does not. -/
theorem recovered_label_is_trimmed :
    ¬ ∀ (data : PublicData) (stored read : PublicEvent), Delivered data stored read →
      SameEffect stored read := by
  intro h
  have hdelivered : Delivered (.node (namedPublicNode markedName)) (nodeStored markedName)
      (PublicEventTable.scanPublicEvent (nodeStored markedName)) :=
    delivered_namedNode (by decide +kernel) (by decide +kernel) (by decide +kernel)
  have hnamed := (sameEffect_node_iff hdelivered).mp (h _ _ _ hdelivered)
  revert hnamed
  decide +kernel

/-- An event with an ordinary name. -/
theorem recovered_effect_of_short_name :
    SameEffect (nodeStored "Hilltop") (PublicEventTable.scanPublicEvent (nodeStored "Hilltop")) ↔
      Clean (.node (namedPublicNode "Hilltop")) :=
  recovered_effect_iff
    (delivered_namedNode (by decide +kernel) (by decide +kernel) (by decide +kernel))

end Sample

end CartoLive.Theorems.RecoveredEffect
