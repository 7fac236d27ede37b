import CartoLive.Web.Reducer

/-!
# Late hydration

A page that starts from a bootstrap has no routes; the pulses it takes in until the full
snapshot arrives make route records that count from zero. The merge keeps such a record
whole, so the page agrees with one that was hydrated first exactly where no route that was
touched since the bootstrap had been counted before.
-/

namespace CartoLive.Theorems.LateHydration

open CartoLive.Live CartoLive.Lib CartoLive.Web

/-! ## Two ways to hydrate -/

/-- The nodes and routes of a snapshot are those of the events up to its sequence. -/
structure Coherent (snapshot : LiveState) (messages : List LiveMessage) : Prop where
  nodes : ∀ id, Keyed.get PublicNode.id id snapshot.nodes = latestNode id messages
  distinct : (snapshot.routes.map PublicRoute.id).Nodup
  routes : ∀ routeID, Counted (hitsOn routeID (pulsesOf messages))
    (Keyed.get PublicRoute.id routeID snapshot.routes)

def sequence (message : LiveMessage) : Int := message.seq.getD 0

/-- A bootstrap, a later full snapshot, and the durable events up to the bootstrap, from
there to the snapshot, and after it. -/
structure Hydration where
  bootstrap : Bootstrap
  snapshot : LiveState
  past : List LiveMessage
  between : List LiveMessage
  later : List LiveMessage
  durable : DurableRun (past ++ between ++ later)
  coherent : Coherent snapshot (past ++ between)
  past_le : ∀ message ∈ past, sequence message ≤ bootstrap.latestSeq
  between_gt : ∀ message ∈ between, bootstrap.latestSeq < sequence message
  between_le : ∀ message ∈ between,
    sequence message ≤ (snapshot.stats.map PublicStats.latestSeq).getD 0
  later_gt : ∀ message ∈ later,
    (snapshot.stats.map PublicStats.latestSeq).getD 0 < sequence message

/-- The page that took in everything since the bootstrap before the snapshot came. -/
def Hydration.late (h : Hydration) (batches : List (Bool × List LiveMessage)) : AppState :=
  hydrateSnapshotTopology
    (applyBatches (initialAppState (bootstrapToLiveState h.bootstrap)) batches) h.snapshot

/-- The page that started from the snapshot. -/
def Hydration.first (h : Hydration) (batches : List (Bool × List LiveMessage)) : AppState :=
  applyBatches (initialAppState h.snapshot) batches

/-- What a route record tells of its traffic. -/
def traffic (route : PublicRoute) : Int × Int × List String :=
  (route.packetCount, route.lastHeard, route.payloadTypeNames)

/-- The same nodes in the same versions, and the same routes with the same traffic. -/
structure Agrees (late first : AppState) : Prop where
  nodes : ∀ id, Keyed.get PublicNode.id id late.nodes = Keyed.get PublicNode.id id first.nodes
  routes : ∀ routeID, (Keyed.get PublicRoute.id routeID late.routes).map traffic =
    (Keyed.get PublicRoute.id routeID first.routes).map traffic

/-- Every route of the snapshot is there, with at least its packet count. -/
def KeepsCounts (snapshot : LiveState) (late : AppState) : Prop :=
  ∀ route ∈ snapshot.routes, ∃ kept, Keyed.get PublicRoute.id route.id late.routes = some kept ∧
    route.packetCount ≤ kept.packetCount

/-- No route with a hit since the bootstrap has one from before. -/
def FreshlyTouched (h : Hydration) : Prop :=
  ∀ routeID, hitsOn routeID (pulsesOf (h.between ++ h.later)) ≠ [] →
    hitsOn routeID (pulsesOf h.past) = []

/-! ## The two pages -/

section Pages

variable (h : Hydration)

theorem unapplied_initialAppState (state : LiveState) (messages : List LiveMessage) :
    Unapplied (initialAppState state) messages where
  seqs _ _ _ _ := List.not_mem_nil
  pulses _ _ := List.not_mem_nil

theorem routesHold_bootstrap (bootstrap : Bootstrap) :
    RoutesHold (initialAppState (bootstrapToLiveState bootstrap)).routes
      (initialAppState (bootstrapToLiveState bootstrap)).routeIndex fun _ => [] where
  indexes := Keyed.Indexes.nil
  counted _ := rfl
  sorted _ _ hget := by cases hget

theorem routesHold_snapshot {snapshot : LiveState} {messages : List LiveMessage}
    (hcoherent : Coherent snapshot messages) :
    RoutesHold (initialAppState snapshot).routes (initialAppState snapshot).routeIndex
      fun routeID => hitsOn routeID (pulsesOf messages) where
  indexes := by
    have hids : (normalizeRouteBuckets snapshot.routes).map PublicRoute.id =
        snapshot.routes.map PublicRoute.id := by
      unfold normalizeRouteBuckets
      rw [List.map_map]
      rfl
    have hplaces := Keyed.indexes_placesFrom Keyed.Indexes.nil
      (show ((normalizeRouteBuckets snapshot.routes).map PublicRoute.id).Nodup by
        rw [hids]; exact hcoherent.distinct) fun _ _ => rfl
    exact hplaces
  counted routeID := counted_normalizeRouteBuckets (hcoherent.routes routeID)
  sorted _ _ hget := sorted_normalizeRouteBuckets hget

variable {h} {batches : List (Bool × List LiveMessage)}

theorem applied_bootstrap (hbatches : batches.flatMap Prod.snd = h.between ++ h.later) :
    Applied (initialAppState (bootstrapToLiveState h.bootstrap)) (h.between ++ h.later)
      (applyBatches (initialAppState (bootstrapToLiveState h.bootstrap)) batches) := by
  have hrun : DurableRun (h.between ++ h.later) := by
    have hall := h.durable
    rw [List.append_assoc] at hall
    exact hall.append_right
  rw [← hbatches] at hrun ⊢
  exact applied_applyBatches hrun (unapplied_initialAppState _ _)

theorem applied_first (hbatches : batches.flatMap Prod.snd = h.later) :
    Applied (initialAppState h.snapshot) h.later (h.first batches) := by
  have hrun : DurableRun h.later := h.durable.append_right
  rw [← hbatches] at hrun ⊢
  exact applied_applyBatches hrun (unapplied_initialAppState _ _)

/-- The merge finds the current record, or that of the snapshot. -/
theorem get_mergeCurrentEntities {α : Type} (id : α → String) (k : String)
    (current snapshot : List α) :
    Keyed.get id k (mergeCurrentEntities id current snapshot) =
      (Keyed.get id k current).or (Keyed.get id k snapshot) := by
  unfold mergeCurrentEntities
  rw [Keyed.get_firstOfEach List.not_mem_nil, Keyed.get_append]

theorem get_nodes_late (hbatches : batches.flatMap Prod.snd = h.between ++ h.later) (id : String) :
    Keyed.get PublicNode.id id (h.late batches).nodes =
      latestNode id (h.past ++ h.between ++ h.later) := by
  show Keyed.get PublicNode.id id (mergeCurrentEntities PublicNode.id _ h.snapshot.nodes) = _
  rw [get_mergeCurrentEntities, (applied_bootstrap hbatches).nodes, h.coherent.nodes]
  show ((latestNode id (h.between ++ h.later)).or none).or _ = _
  rw [Option.or_none, latestNode_append id h.between, latestNode_append id h.past,
    latestNode_append id (h.past ++ h.between), latestNode_append id h.past]
  cases latestNode id h.later <;> cases latestNode id h.between <;> rfl

theorem get_nodes_first (hbatches : batches.flatMap Prod.snd = h.later) (id : String) :
    Keyed.get PublicNode.id id (h.first batches).nodes =
      latestNode id (h.past ++ h.between ++ h.later) := by
  rw [(applied_first hbatches).nodes, latestNode_append _ (h.past ++ h.between)]
  show (latestNode id h.later).or (Keyed.get PublicNode.id id h.snapshot.nodes) = _
  rw [h.coherent.nodes]

/-- The hits that a late page has counted on a route. -/
def countedLate (h : Hydration) (routeID : String) : List Hit :=
  if hitsOn routeID (pulsesOf (h.between ++ h.later)) = [] then
    hitsOn routeID (pulsesOf h.past)
  else hitsOn routeID (pulsesOf (h.between ++ h.later))

theorem late_route (hbatches : batches.flatMap Prod.snd = h.between ++ h.later)
    (routeID : String) :
    Counted (countedLate h routeID) (Keyed.get PublicRoute.id routeID (h.late batches).routes) ∧
      ∀ route, Keyed.get PublicRoute.id routeID (h.late batches).routes = some route →
        sortedNames route.payloadTypeNames = route.payloadTypeNames := by
  have hroutes := (applied_bootstrap hbatches).routes _ (routesHold_bootstrap h.bootstrap)
  have hcounted := hroutes.counted routeID
  have hsorted := hroutes.sorted routeID
  have hlate : Keyed.get PublicRoute.id routeID (h.late batches).routes =
      (Keyed.get PublicRoute.id routeID
        (applyBatches (initialAppState (bootstrapToLiveState h.bootstrap)) batches).routes).or
        (Keyed.get PublicRoute.id routeID (normalizeRouteBuckets h.snapshot.routes)) :=
    get_mergeCurrentEntities _ _ _ _
  rw [hlate]
  unfold countedLate
  rw [List.nil_append] at hcounted
  cases hcurrent : Keyed.get PublicRoute.id routeID
      (applyBatches (initialAppState (bootstrapToLiveState h.bootstrap)) batches).routes with
  | none =>
    have hnone : hitsOn routeID (pulsesOf (h.between ++ h.later)) = [] := by
      rw [hcurrent] at hcounted
      exact hcounted
    have hsnapshot := counted_normalizeRouteBuckets (h.coherent.routes routeID)
    rw [if_pos hnone, Option.none_or]
    rw [pulsesOf_append, hitsOn_append] at hnone hsnapshot
    rw [(List.append_eq_nil_iff.mp hnone).1, List.append_nil] at hsnapshot
    exact ⟨hsnapshot, fun _ hget => sorted_normalizeRouteBuckets hget⟩
  | some route =>
    rw [hcurrent] at hcounted
    rw [if_neg hcounted.hit, Option.some_or]
    exact ⟨hcounted, fun _ hget => hsorted _ (by rw [hcurrent]; exact hget)⟩

theorem first_route (hbatches : batches.flatMap Prod.snd = h.later) (routeID : String) :
    Counted (hitsOn routeID (pulsesOf (h.past ++ h.between ++ h.later)))
        (Keyed.get PublicRoute.id routeID (h.first batches).routes) ∧
      ∀ route, Keyed.get PublicRoute.id routeID (h.first batches).routes = some route →
        sortedNames route.payloadTypeNames = route.payloadTypeNames := by
  have hroutes := (applied_first hbatches).routes _ (routesHold_snapshot h.coherent)
  refine ⟨?_, hroutes.sorted routeID⟩
  rw [pulsesOf_append, hitsOn_append]
  exact hroutes.counted routeID

/-- Two records that tell the same hits in sorted names tell the same traffic. -/
theorem traffic_of_counted {hits : List Hit} {a b : Option PublicRoute} (ha : Counted hits a)
    (hb : Counted hits b)
    (hsa : ∀ route, a = some route → sortedNames route.payloadTypeNames = route.payloadTypeNames)
    (hsb : ∀ route, b = some route → sortedNames route.payloadTypeNames = route.payloadTypeNames) :
    a.map traffic = b.map traffic := by
  match a, b with
  | none, none => rfl
  | none, some b => exact absurd ha hb.hit
  | some a, none => exact absurd hb ha.hit
  | some a, some b =>
    obtain ⟨hcount, hlast, hnames⟩ := Tallies.unique ha hb
    rw [hsa a rfl, hsb b rfl] at hnames
    simp [traffic, hcount, hlast, hnames]

/-- Records with the same traffic have counted equally many hits. -/
theorem length_of_traffic {hits hits' : List Hit} {a b : Option PublicRoute}
    (ha : Counted hits a) (hb : Counted hits' b) (htraffic : a.map traffic = b.map traffic) :
    hits.length = hits'.length := by
  match a, b with
  | none, none => rw [show hits = [] from ha, show hits' = [] from hb]
  | none, some b => cases htraffic
  | some a, none => cases htraffic
  | some a, some b =>
    have hcount : a.packetCount = b.packetCount := by
      simpa [traffic] using congrArg (Option.map Prod.fst) htraffic
    have hlen := ha.count_eq
    have hlen' := hb.count_eq
    omega

end Pages

/-- The late page agrees with the one hydrated first, and no route ends below the count of
the snapshot, exactly when no route touched since the bootstrap had been counted before. -/
theorem late_hydration_agrees_iff (h : Hydration) {late first : List (Bool × List LiveMessage)}
    (hlate : late.flatMap Prod.snd = h.between ++ h.later)
    (hfirst : first.flatMap Prod.snd = h.later) :
    (Agrees (h.late late) (h.first first) ∧ KeepsCounts h.snapshot (h.late late)) ↔
      FreshlyTouched h := by
  have hall : ∀ routeID, hitsOn routeID (pulsesOf (h.past ++ h.between ++ h.later)) =
      hitsOn routeID (pulsesOf h.past) ++ hitsOn routeID (pulsesOf (h.between ++ h.later)) := by
    intro routeID
    rw [List.append_assoc, pulsesOf_append, hitsOn_append]
  constructor
  · rintro ⟨hagrees, -⟩ routeID htouched
    have hlen := length_of_traffic (late_route hlate routeID).1 (first_route hfirst routeID).1
      (hagrees.routes routeID)
    rw [countedLate, if_neg htouched, hall, List.length_append] at hlen
    exact List.length_eq_zero_iff.mp (by omega)
  · intro hfresh
    have hsame : ∀ routeID, countedLate h routeID =
        hitsOn routeID (pulsesOf (h.past ++ h.between ++ h.later)) := by
      intro routeID
      rw [countedLate, hall]
      split
      · rename_i hnone
        rw [hnone, List.append_nil]
      · rename_i htouched
        rw [hfresh routeID htouched, List.nil_append]
    refine ⟨⟨fun id => ?_, fun routeID => ?_⟩, fun route hmem => ?_⟩
    · rw [get_nodes_late hlate, get_nodes_first hfirst]
    · obtain ⟨hcounted, hsorted⟩ := late_route hlate routeID
      obtain ⟨hcounted', hsorted'⟩ := first_route hfirst routeID
      rw [hsame] at hcounted
      exact traffic_of_counted hcounted hcounted' hsorted hsorted'
    · have hcounted := (late_route hlate route.id).1
      have hsnapshot := h.coherent.routes route.id
      rw [hsame, pulsesOf_append, hitsOn_append] at hcounted
      rw [Keyed.get_of_mem h.coherent.distinct hmem] at hsnapshot
      cases hget : Keyed.get PublicRoute.id route.id (h.late late).routes with
      | none =>
        rw [hget] at hcounted
        exact absurd (List.append_eq_nil_iff.mp hcounted).1 hsnapshot.hit
      | some kept =>
        rw [hget] at hcounted
        have hlen := hsnapshot.count_eq
        have hlen' := hcounted.count_eq
        rw [List.length_append] at hlen'
        exact ⟨kept, rfl, by omega⟩

/-! ## A page that opens while its routes are in use -/

def exampleEndpoint (nodeID : String) : PublicRouteEndpoint :=
  { nodeID, label := nodeID, lat := .fin 45, lng := .fin (-75), pathHash3 := "" }

def exampleSegment (routeID : String) : PublicRouteSegment :=
  { routeID, source := exampleEndpoint "a", target := exampleEndpoint "b", distanceKM := .fin 1 }

/-- A pulse over one route. -/
def examplePulse (seq : Int) (id routeID : String) : LiveMessage :=
  { type := .event, seq := some seq, latestSeq := some seq, serverTime := none
    receivedAt := some seq
    data := some (.routePulse
      { PublicRoutePulse.sample id seq [exampleSegment routeID] with
        receivedAt := none, displayAt := none }) }

def exampleUpdate (seq : Int) : LiveMessage :=
  { type := .event, seq := some seq, latestSeq := some seq, serverTime := none
    receivedAt := some seq, data := some (.nodeUpdate (.sample "a" seq)) }

/-- A route that one pulse has used. -/
def exampleRoute (routeID : String) (lastHeard : Int) : PublicRoute :=
  { id := routeID, source := exampleEndpoint "a", target := exampleEndpoint "b"
    distanceKM := .fin 1, packetCount := 1, lastHeard, frequencyBucket := 0
    payloadTypeNames := ["ADVERT"] }

def exampleStats (latestSeq : Int) : PublicStats :=
  { packets := 0, activeNodes := 0, activeRoutes := 0, mqttConnected := true, mqttMessages := 0
    wsClients := 0, serverTime := 0, latestSeq, resolutionBuckets := [], excludedIATAs := []
    excludedRegions := [] }

/-- One pulse before the bootstrap, a node update before the snapshot, and one pulse after
it. -/
def exampleHydration (routeID : String) : Hydration where
  bootstrap := { serverTime := 0, stats := exampleStats 1, latestSeq := 1, recentActivity := [] }
  snapshot :=
    { serverTime := 0, stats := some (exampleStats 2), nodes := [.sample "a" 2]
      routes := [exampleRoute "a-b" 1], recentPulses := [], recentActivity := [] }
  past := [examplePulse 1 "pulse-1" "a-b"]
  between := [exampleUpdate 2]
  later := [examplePulse 3 "pulse-2" routeID]
  durable :=
    { event := by simp [examplePulse, exampleUpdate]
      ordered := by simp [examplePulse, exampleUpdate]
      once := show ["pulse-1", "pulse-2"].Nodup by decide }
  coherent :=
    { nodes := fun _ => rfl
      distinct := by decide
      routes := by
        intro id
        by_cases h : id = "a-b"
        · subst h
          exact Tallies.single ⟨1, "ADVERT"⟩
        · have hne : "a-b" ≠ id := fun heq => h heq.symm
          simp [hitsOn, pulsesOf, LiveRoutePulse.hitsOn, LiveMessage.pulse?, examplePulse,
            exampleUpdate, PublicRoutePulse.sample, exampleSegment, Keyed.get, exampleRoute,
            Counted, hne] }
  past_le := by simp [sequence, examplePulse]
  between_gt := by simp [sequence, exampleUpdate]
  between_le := by simp [sequence, exampleUpdate, exampleStats]
  later_gt := by simp [sequence, examplePulse, exampleStats]

/-- A second pulse on another route makes no difference. -/
theorem late_hydration_agrees_on_other_route :
    let h := exampleHydration "c-d"
    (Agrees (h.late [(true, h.between), (true, h.later)]) (h.first [(true, h.later)]) ∧
        KeepsCounts h.snapshot (h.late [(true, h.between), (true, h.later)])) ↔
      FreshlyTouched h :=
  late_hydration_agrees_iff (exampleHydration "c-d") rfl rfl

/-- The second pulse on the same route is the only one that the late page counts. -/
theorem counts_from_the_bootstrap :
    ¬ ∀ (h : Hydration) (late first : List (Bool × List LiveMessage)),
      late.flatMap Prod.snd = h.between ++ h.later → first.flatMap Prod.snd = h.later →
        Agrees (h.late late) (h.first first) ∧ KeepsCounts h.snapshot (h.late late) := by
  intro hall
  let h := exampleHydration "a-b"
  have hroutes := (hall h [(true, h.between ++ h.later)] [(true, h.later)] rfl rfl).1.routes "a-b"
  have hlate : (Keyed.get PublicRoute.id "a-b"
      (h.late [(true, h.between ++ h.later)]).routes).map traffic = some (1, 3, ["ADVERT"]) := by
    decide +kernel
  have hfirst : (Keyed.get PublicRoute.id "a-b"
      (h.first [(true, h.later)]).routes).map traffic = some (2, 3, ["ADVERT"]) := by
    decide +kernel
  rw [hlate, hfirst] at hroutes
  exact absurd hroutes (by decide)

end CartoLive.Theorems.LateHydration
