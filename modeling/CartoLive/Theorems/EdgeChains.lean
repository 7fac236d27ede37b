import CartoLive.App.EdgeBuilder

/-!
# Drawn edges are chains

An edge that passes the decision and is built has a segment, its segments join
up, its endpoints are on the map and its segments pass the distance gate. On the
path of resolved hops `appendEndpoint` leaves out an endpoint that repeats the
one before. On the zero-hop path of an advert nothing does: an advert that its
own observer publishes is drawn from the node to itself, and that is the only
way to draw an edge that is not a chain (`chain_iff`).
-/

namespace CartoLive.Theorems.EdgeChains

open CartoLive.App CartoLive.Go CartoLive.Live CartoLive.Meshcore CartoLive.Resolve CartoLive.Store

/-! ## What is claimed of an edge -/

/-- Not the same node. -/
def Apart (a b : EdgeEndpoint) : Prop := a.nodeID ≠ b.nodeID

/-- The distance gate is off, or the segment is not too long, or it is a trace that may be. -/
def Near (config : EdgeConfig) (parsed : Meshcore.ParsedPacket) (segment : SignalSegment) : Prop :=
  config.maxUnverifiedEdgeKM.le (.fin 0) = true ∨
    segment.distanceKM.le config.maxUnverifiedEdgeKM = true ∨
    parsed.payloadType = payloadTrace ∧ config.allowLongTraceEdges = true

structure GenuineChain [LiveEnv] (config : EdgeConfig) (parsed : Meshcore.ParsedPacket)
    (edge : BuiltEdge) : Prop where
  nonempty : edge.segments ≠ []
  joined : edge.segments.IsChain fun a b => a.target = b.source
  onMap : ∀ s ∈ edge.segments, validEndpoint s.source = true ∧ validEndpoint s.target = true
  apart : ∀ s ∈ edge.segments, Apart s.source s.target
  near : ∀ s ∈ edge.segments, Near config parsed s

/-- The node that published the message: the stored node of the publisher, or where that has no
coordinates its record as an observer. -/
def publisherID [LiveEnv] (store : EdgeStore) (msg : NormalizedMessage) : Option String :=
  match (store.tables.nodeByPublicKey msg.publisherPK).bind nodeEndpoint with
  | some endpoint => some endpoint.nodeID
  | none => (store.observerByPublicKeyIATA msg.publisherPK msg.iata).map Observer.publicKey

/-! ## Segments -/

section Segments

variable {haversineKM : F64 → F64 → F64 → F64 → F64} {config : EdgeConfig}
  {msg : NormalizedMessage} {parsed : Meshcore.ParsedPacket}

theorem near_of_not_rejected {segment : SignalSegment}
    (h : ¬shouldRejectDistance segment.distanceKM config.maxUnverifiedEdgeKM
      (parsed.payloadType = payloadTrace) config.allowLongTraceEdges = true) :
    Near config parsed segment := by
  unfold shouldRejectDistance at h
  split at h
  · rename_i hoff
    exact .inl hoff
  split at h
  · rename_i hshort
    exact .inr (.inl hshort)
  split at h
  · rename_i htrace
    exact .inr (.inr (by simpa using htrace))
  · exact absurd rfl h

/-- A segment between two endpoints, and the segments of the rest. -/
theorem buildSegments_cons {a b : EdgeEndpoint} {rest : List EdgeEndpoint}
    {segments : List SignalSegment}
    (h : buildSegments haversineKM config msg parsed (a :: b :: rest) = .ok segments) :
    Near config parsed (segmentBetween haversineKM msg a b) ∧
      ∃ more, buildSegments haversineKM config msg parsed (b :: rest) = .ok more ∧
        segments = segmentBetween haversineKM msg a b :: more := by
  rw [buildSegments] at h
  obtain ⟨hnear, h⟩ := ite_error_eq_ok.mp h
  refine ⟨near_of_not_rejected hnear, ?_⟩
  cases hmore : buildSegments haversineKM config msg parsed (b :: rest) with
  | error failure =>
    rw [hmore] at h
    cases h
  | ok more =>
    rw [hmore] at h
    exact ⟨more, rfl, (Except.ok.inj h).symm⟩

/-- The segments join up from the first endpoint on, and each lies between two endpoints that follow
one another. -/
theorem buildSegments_spec {endpoints : List EdgeEndpoint} {segments : List SignalSegment}
    (h : buildSegments haversineKM config msg parsed endpoints = .ok segments) :
    segments.length = endpoints.length - 1 ∧
      (segments.IsChain fun a b => a.target = b.source) ∧
      (∀ s ∈ segments.head?, some s.source = endpoints.head?) ∧
      ∀ s ∈ segments, s.source ∈ endpoints ∧ s.target ∈ endpoints ∧
        (endpoints.IsChain Apart → Apart s.source s.target) ∧ Near config parsed s := by
  induction endpoints generalizing segments with
  | nil =>
    cases h
    exact ⟨rfl, .nil, by simp, by simp⟩
  | cons a rest ih =>
    cases rest with
    | nil =>
      cases h
      exact ⟨rfl, .nil, by simp, by simp⟩
    | cons b rest =>
      obtain ⟨hnear, more, hmore, rfl⟩ := buildSegments_cons h
      obtain ⟨hlength, hjoined, hhead, hends⟩ := ih hmore
      refine ⟨by simp [hlength], ?_, ?_, ?_⟩
      · refine List.isChain_cons.mpr ⟨fun s hs => ?_, hjoined⟩
        exact (Option.some.inj (hhead s hs)).symm
      · intro s hs
        cases hs
        rfl
      · intro s hs
        rcases List.mem_cons.mp hs with rfl | hs
        · refine ⟨List.mem_cons_self, by simp [segmentBetween], fun hapart => ?_, hnear⟩
          exact (List.isChain_cons_cons.mp hapart).1
        · obtain ⟨hsource, htarget, hapart, hshort⟩ := hends s hs
          exact ⟨List.mem_cons_of_mem _ hsource, List.mem_cons_of_mem _ htarget,
            fun hchain => hapart (List.isChain_cons_cons.mp hchain).2, hshort⟩

end Segments

/-! ## Endpoints -/

section Endpoints

variable [LiveEnv] {store : EdgeStore} {msg : NormalizedMessage} {parsed : Meshcore.ParsedPacket}
  {resolution : Result} {advertNode : Option Node}

theorem endpointAt_spec {nodeID name publicKey : String} {latitude longitude : Option F64}
    {endpoint : EdgeEndpoint}
    (h : endpointAt nodeID name publicKey latitude longitude = some endpoint) :
    validEndpoint endpoint = true ∧ endpoint.nodeID = nodeID := by
  unfold endpointAt at h
  split at h
  · obtain ⟨hvalid, h⟩ := Option.ite_none_right_eq_some.mp h
    cases h
    exact ⟨hvalid, rfl⟩
  · cases h

/-- An optional record's endpoint is the endpoint of the record. -/
theorem valid_bind_nodeEndpoint {node : Option Node} {endpoint : EdgeEndpoint}
    (h : node.bind nodeEndpoint = some endpoint) :
    validEndpoint endpoint = true ∧ ∃ n, node = some n ∧ endpoint.nodeID = n.nodeID := by
  obtain ⟨n, hn, hendpoint⟩ := Option.bind_eq_some_iff.mp h
  exact ⟨(endpointAt_spec hendpoint).1, n, hn, (endpointAt_spec hendpoint).2⟩

theorem prefixEndpoint_valid {endpoint : EdgeEndpoint}
    (h : prefixEndpoint store msg parsed = some endpoint) : validEndpoint endpoint = true := by
  unfold prefixEndpoint at h
  split at h
  · cases h
  · split at h
    · rename_i hone
      cases h
      have hmem : endpoint ∈ [endpoint] := List.mem_singleton.mpr rfl
      rw [← hone] at hmem
      obtain ⟨candidate, -, hcandidate⟩ := List.mem_filterMap.mp hmem
      exact (endpointAt_spec hcandidate).1
    · cases h

theorem originEndpoint_valid {endpoint : EdgeEndpoint}
    (h : originEndpoint store msg parsed advertNode = some endpoint) :
    validEndpoint endpoint = true := by
  unfold originEndpoint at h
  split at h
  · rename_i hadvert
    cases h
    exact (valid_bind_nodeEndpoint hadvert).1
  · dsimp only at h
    split at h
    · rename_i hstored
      cases h
      exact (valid_bind_nodeEndpoint hstored).1
    · exact prefixEndpoint_valid h

/-- The observer's endpoint is on the map, and is that of the publisher. -/
theorem observerEndpoint_spec {endpoint : EdgeEndpoint}
    (h : observerEndpoint store msg = some endpoint) :
    validEndpoint endpoint = true ∧ publisherID store msg = some endpoint.nodeID := by
  unfold observerEndpoint at h
  unfold publisherID
  generalize hnode : (store.tables.nodeByPublicKey msg.publisherPK).bind nodeEndpoint = node at h ⊢
  cases node with
  | some node =>
    cases h
    exact ⟨(valid_bind_nodeEndpoint hnode).1, rfl⟩
  | none =>
    obtain ⟨observer, hobserver, hendpoint⟩ := Option.bind_eq_some_iff.mp h
    obtain ⟨hvalid, hid⟩ := endpointAt_spec hendpoint
    rw [hid, hobserver]
    exact ⟨hvalid, rfl⟩

/-- Endpoints on the map, of which none repeats the one before. -/
structure OnPath (endpoints : List EdgeEndpoint) : Prop where
  valid : ∀ e ∈ endpoints, validEndpoint e = true
  apart : endpoints.IsChain Apart

theorem OnPath.appendEndpoint {endpoints : List EdgeEndpoint} (h : OnPath endpoints)
    {endpoint : EdgeEndpoint} (hvalid : validEndpoint endpoint = true) :
    OnPath (appendEndpoint endpoints endpoint) := by
  unfold App.appendEndpoint
  split
  · exact h
  · rename_i hnew
    constructor
    · intro e he
      rcases List.mem_append.mp he with he | he
      · exact h.valid e he
      · rw [List.mem_singleton.mp he]
        exact hvalid
    · refine List.isChain_append.mpr ⟨h.apart, List.isChain_singleton _, fun last hlast e he => ?_⟩
      cases he
      intro hsame
      apply hnew
      rw [hlast]
      simpa using hsame

theorem OnPath.appendFound {endpoints : List EdgeEndpoint} (h : OnPath endpoints)
    {found : Option EdgeEndpoint} (hvalid : ∀ e, found = some e → validEndpoint e = true) :
    OnPath (appendFound endpoints found) := by
  cases found with
  | none => exact h
  | some endpoint => exact h.appendEndpoint (hvalid endpoint rfl)

/-- The loop over the hops. -/
theorem OnPath.hopEndpoints {hops : List ResolvedHop} {endpoints endpoints' : List EdgeEndpoint}
    (h : OnPath endpoints) (hhops : hopEndpoints endpoints hops = .ok endpoints') :
    OnPath endpoints' := by
  induction hops generalizing endpoints with
  | nil =>
    cases hhops
    exact h
  | cons hop rest ih =>
    unfold App.hopEndpoints at hhops
    split at hhops
    · cases hhops
    · rename_i endpoint hendpoint
      exact ih (h.appendEndpoint (endpointAt_spec hendpoint).1) hhops

/-- The endpoints of a packet without hops are those of its advert and of its observer. -/
theorem routeEndpoints_zero_hop {endpoints : List EdgeEndpoint} (hzero : parsed.hopCount = 0)
    (h : routeEndpoints store msg parsed resolution advertNode = .ok endpoints) :
    ∃ advert observer, advertNode.bind nodeEndpoint = some advert ∧
      observerEndpoint store msg = some observer ∧ endpoints = [advert, observer] := by
  unfold routeEndpoints at h
  rw [if_pos hzero] at h
  obtain ⟨-, h⟩ := ite_error_eq_ok.mp h
  split at h
  · cases h
  · rename_i advert hadvert
    split at h
    · cases h
    · rename_i observer hobserver
      exact ⟨advert, observer, hadvert, hobserver, (Except.ok.inj h).symm⟩

/-- The endpoints of a packet with hops are on the map and differ from their neighbours. -/
theorem routeEndpoints_hops {endpoints : List EdgeEndpoint} (hhops : parsed.hopCount ≠ 0)
    (h : routeEndpoints store msg parsed resolution advertNode = .ok endpoints) :
    2 ≤ endpoints.length ∧ OnPath endpoints := by
  unfold routeEndpoints at h
  rw [if_neg hhops] at h
  obtain ⟨-, h⟩ := ite_error_eq_ok.mp h
  split at h
  · cases h
  · rename_i path hpath
    obtain ⟨henough, h⟩ := ite_error_eq_ok.mp h
    cases h
    have horigin : OnPath (appendFound [] (originEndpoint store msg parsed advertNode)) :=
      OnPath.appendFound ⟨by simp, .nil⟩ fun _ => originEndpoint_valid
    have hpath := horigin.hopEndpoints hpath
    refine ⟨Nat.le_of_not_lt henough, hpath.appendFound fun e he => ?_⟩
    exact (observerEndpoint_spec he).1

end Endpoints

/-! ## Edges -/

section Edges

variable [LiveEnv] {haversineKM : F64 → F64 → F64 → F64 → F64} {config : EdgeConfig}
  {store : EdgeStore} {msg : NormalizedMessage} {parsed : Meshcore.ParsedPacket}
  {resolution : Result} {advertNode : Option Node} {observationID : Int}
  {decodedMessage : DecodedPublicMessage} {edge : BuiltEdge}

theorem exists_endpoints
    (h : buildEdgeEvent haversineKM config store msg parsed resolution advertNode observationID
      decodedMessage = .ok edge) :
    ∃ endpoints, routeEndpoints store msg parsed resolution advertNode = .ok endpoints ∧
      buildSegments haversineKM config msg parsed endpoints = .ok edge.segments := by
  obtain ⟨-, h⟩ := ite_error_eq_ok.mp h
  split at h
  · cases h
  · rename_i endpoints hendpoints
    cases hsegments : buildSegments haversineKM config msg parsed endpoints with
    | error failure =>
      rw [hsegments] at h
      cases h
    | ok segments =>
      rw [hsegments] at h
      have hedge := Except.ok.inj h
      exact ⟨endpoints, hendpoints, by rw [← hedge, hsegments]⟩

/-- Segments between endpoints on the map are a chain, but for their neighbours being apart. -/
theorem chain_of_endpoints {endpoints : List EdgeEndpoint} (henough : 2 ≤ endpoints.length)
    (hvalid : ∀ e ∈ endpoints, validEndpoint e = true)
    (hsegments : buildSegments haversineKM config msg parsed endpoints = .ok edge.segments)
    (hapart : ∀ s ∈ edge.segments, Apart s.source s.target) :
    GenuineChain config parsed edge := by
  obtain ⟨hlength, hjoined, -, hends⟩ := buildSegments_spec hsegments
  refine ⟨fun hnil => ?_, hjoined, fun s hs => ?_, hapart, fun s hs => (hends s hs).2.2.2⟩
  · rw [hnil, List.length_nil] at hlength
    omega
  · exact ⟨hvalid _ (hends s hs).1, hvalid _ (hends s hs).2.1⟩

/-- An edge that passes the decision and is built is a chain, unless it is a zero-hop advert that
the advertising node published itself. -/
theorem chain_iff
    (hdecision : (edgeDecision config store msg parsed resolution advertNode).1 = statusHigh)
    (hbuilt : buildEdgeEvent haversineKM config store msg parsed resolution advertNode observationID
      decodedMessage = .ok edge) :
    GenuineChain config parsed edge ↔
      ¬(parsed.hopCount = 0 ∧ publisherID store msg = advertNode.map Node.nodeID) := by
  obtain ⟨endpoints, hendpoints, hsegments⟩ := exists_endpoints hbuilt
  by_cases hzero : parsed.hopCount = 0
  · obtain ⟨a, observer, hadvert, hobserver, rfl⟩ := routeEndpoints_zero_hop hzero hendpoints
    obtain ⟨hvalid, advert, rfl, hid⟩ := valid_bind_nodeEndpoint hadvert
    obtain ⟨hobserved, hpublished⟩ := observerEndpoint_spec hobserver
    obtain ⟨-, more, hmore, honly⟩ := buildSegments_cons hsegments
    cases hmore
    have hapart : (∀ s ∈ edge.segments, Apart s.source s.target) ↔ a.nodeID ≠ observer.nodeID := by
      rw [honly]
      simp [segmentBetween, Apart]
    have hself : publisherID store msg = (some advert).map Node.nodeID ↔
        a.nodeID = observer.nodeID := by
      rw [hpublished, hid, Option.map_some, Option.some.injEq, eq_comm]
    constructor
    · rintro hchain ⟨-, h⟩
      exact hapart.mp hchain.apart (hself.mp h)
    · intro hother
      refine chain_of_endpoints (by simp) ?_ hsegments
        (hapart.mpr fun heq => hother ⟨hzero, hself.mpr heq⟩)
      intro e he
      rcases List.mem_pair.mp he with rfl | rfl
      · exact hvalid
      · exact hobserved
  · obtain ⟨henough, hpath⟩ := routeEndpoints_hops hzero hendpoints
    refine ⟨fun _ h => hzero h.1, fun _ => ?_⟩
    obtain ⟨-, -, -, hends⟩ := buildSegments_spec hsegments
    exact chain_of_endpoints henough hpath.valid hsegments fun s hs => (hends s hs).2.2.1 hpath.apart

end Edges

/-! ## An advert that its observer publishes -/

attribute [local instance] defaultEnv

/-- A key of 32 bytes that are written with one digit. -/
def keyOf (digit : Char) : String := String.ofList (.replicate 64 digit)

def hilltop (nodeID : String) (digit : Char) (lat : F64) : NodeRow :=
  { nodeID, publicKey := keyOf digit, name := "Hilltop", nodeType := 2, role := "repeater"
    latitude := some lat, longitude := some (.fin (-80)), locationSource := "advert"
    firstSeen := 1, lastSeen := 1, observationCount := 1, supportsMultibyte := "known" }

/-- Two repeaters on the map. -/
def hilltops : EdgeStore :=
  { tables :=
      { nodes := [hilltop "n1" '1' (.fin 43), hilltop "n2" '2' (.fin 44)]
        nodeIATAs := [], nodeShortIDs := [] }
    observers := [] }

/-- The node as `UpsertAdvertNode` returns it. -/
def advertised : Option Node := hilltops.tables.nodeByPublicKey (keyOf '1')

/-- An advert of the first one, with a key, a time and a signature. -/
def advertPayload : List UInt8 := .replicate 32 0x11 ++ .replicate 68 0

/-- The advert as nobody has forwarded it. -/
def zeroHopAdvert : Meshcore.ParsedPacket :=
  assemble (fun _ => []) ([0x11, 0x00] ++ advertPayload) 0x11 [] 0x00 advertPayload

def publishedBy (digit : Char) : NormalizedMessage :=
  { publisherPK := keyOf digit, iata := "YKF", rssi := some (.fin (-90)), snr := none, heardAtMs := 1 }

def defaultConfig : EdgeConfig :=
  { requireRSSIOrSNRForEdge := true, maxUnverifiedEdgeKM := .fin 150, allowLongTraceEdges := true }

def noPath : Result := { status := statusNoPath, reason := "zero_hop_packet", hops := [] }

/-- What the zero-hop advert becomes when this node publishes it. -/
def drawn (digit : Char) : Except (String × String) BuiltEdge :=
  buildEdgeEvent (fun lat _ lat' _ => if lat = lat' then .fin 0 else .fin 111) defaultConfig hilltops
    (publishedBy digit) zeroHopAdvert noPath advertised 1 { sender := "", text := "" }

/-- Another node hears the advert. -/
theorem chain_iff_heard : ∃ edge, drawn '2' = .ok edge ∧
    GenuineChain defaultConfig zeroHopAdvert edge := by
  have hbuilds : (drawn '2').isOk = true := by decide +kernel
  have hdecision : (edgeDecision defaultConfig hilltops (publishedBy '2') zeroHopAdvert
      noPath advertised).1 = statusHigh := by decide +kernel
  cases hbuilt : drawn '2' with
  | error failure =>
    rw [hbuilt] at hbuilds
    cases hbuilds
  | ok edge => exact ⟨edge, rfl, (chain_iff hdecision hbuilt).mpr (by decide +kernel)⟩

/-- The node publishes its own advert, and is drawn to itself. -/
theorem self_segment : ¬ ∀ (haversineKM : F64 → F64 → F64 → F64 → F64) (config : EdgeConfig)
    (store : EdgeStore) (msg : NormalizedMessage) (parsed : Meshcore.ParsedPacket)
    (resolution : Result) (advertNode : Option Node) (observationID : Int)
    (decodedMessage : DecodedPublicMessage) (edge : BuiltEdge),
    (edgeDecision config store msg parsed resolution advertNode).1 = statusHigh →
    buildEdgeEvent haversineKM config store msg parsed resolution advertNode observationID
      decodedMessage = .ok edge →
    GenuineChain config parsed edge := by
  intro h
  have hself : (match drawn '1' with
      | .ok edge => edge.segments.any fun s => s.source.nodeID = s.target.nodeID
      | .error _ => false) = true := by decide +kernel
  have hdecision : (edgeDecision defaultConfig hilltops (publishedBy '1') zeroHopAdvert
      noPath advertised).1 = statusHigh := by decide +kernel
  cases hbuilt : drawn '1' with
  | error failure =>
    rw [hbuilt] at hself
    cases hself
  | ok edge =>
    rw [hbuilt] at hself
    obtain ⟨s, hs, hsame⟩ := List.any_eq_true.mp hself
    exact (h _ _ _ _ _ _ _ _ _ _ hdecision hbuilt).apart s hs (of_decide_eq_true hsame)

end CartoLive.Theorems.EdgeChains
