import CartoLive.App.Backend
import CartoLive.Lib.Windows

/-!
# Regions that are not public

Two histories of edges that differ in edges of rejected regions only. Nothing of
them shows in the public state when no rejected edge has a segment with two valid
endpoints (the route summaries count every edge, and no filter looks at them) and
the rejected edges do not push admitted ones out of the recent edges (which are
limited before they are filtered).
-/

namespace CartoLive.Theorems.RegionNoninterference

open CartoLive.App CartoLive.Lib CartoLive.Live CartoLive.Store

section Env

variable [LiveEnv] {db db' db₁ db₂ : Database} {filter : PublicIATAFilter}

/-! ## Histories -/

inductive EdgeAct
  /-- `CommitLiveEdge`. -/
  | commit (now : Int) (request : Database.LiveEdgeCommitRequest)
  /-- `ProjectEdgeEvent` of a stored edge. -/
  | project (edge : EdgeEvent)
  | backfill (since until_ limit : Int)

/-- Commits and projections, over tables of nodes, observers and observations. -/
def edgeHistory : TSys Database EdgeAct where
  init db := db.edges = [] ∧ db.edgeSequence = 0 ∧ db.projected = [] ∧ db.summaries = []
  step db
    | .commit now request => some (db.commitLiveEdge now request).1
    | .project edge =>
      if edge ∈ db.edges then some (db.upsertPublicRouteSummariesTx edge) else none
    | .backfill since until_ limit => some (db.backfillPublicRouteSummaries since until_ limit)

/-- The edge that an identifier of `public_route_summary_edges` stands for. -/
def projectedRow (db : Database) (id : Int) : Option EdgeEvent :=
  db.edges.find? fun edge => edge.id = id

/-- The projected edges, in the order of their projection. -/
def projectedRows (db : Database) : List EdgeEvent := db.projected.filterMap (projectedRow db)

/-- What the projection of an edge does to the summaries. -/
def projectRow (rows : List PublicRoute) (edge : EdgeEvent) : List PublicRoute :=
  match publicRoutePulseFromEdge edge [] with
  | none => rows
  | some pulse => pulse.segments.foldl (Database.upsertSegment edge) rows

theorem projectRow_of_unmappable {edge : EdgeEvent} (h : mappableSegments edge = [])
    (rows : List PublicRoute) : projectRow rows edge = rows := by
  unfold projectRow publicRoutePulseFromEdge
  simp [h]

/-- The projection of an edge does not look at its region. -/
theorem projectRow_joined (db : Database) (rows : List PublicRoute) (edge : EdgeEvent) :
    projectRow rows (db.joined edge) = projectRow rows edge := by
  have hsegments : mappableSegments (db.joined edge) = mappableSegments edge := rfl
  unfold projectRow publicRoutePulseFromEdge
  rw [hsegments]
  by_cases hnil : (mappableSegments edge).map (publicSegment []) = []
  · simp [hnil]
  · simp only [if_neg hnil]
    rfl

/-- The summaries are what the projected edges make of an empty table. -/
structure ProjectionInv (db : Database) : Prop where
  ids : (db.edges.map EdgeEvent.id).Nodup
  bound : ∀ edge ∈ db.edges, edge.id ≤ db.edgeSequence
  known : ∀ id ∈ db.projected, ∃ edge ∈ db.edges, edge.id = id
  summaries : db.summaries = (projectedRows db).foldl projectRow []

/-! ## The invariant -/

omit [LiveEnv] in
/-- The row of a stored identifier. -/
theorem projectedRow_of_mem (h : (db.edges.map EdgeEvent.id).Nodup) {edge : EdgeEvent}
    (hedge : edge ∈ db.edges) : projectedRow db edge.id = some edge := by
  unfold projectedRow
  cases hfind : db.edges.find? fun row => row.id = edge.id with
  | none => exact absurd (decide_eq_true rfl) (List.find?_eq_none.mp hfind edge hedge)
  | some row =>
    have hid : row.id = edge.id := by simpa using List.find?_some hfind
    rw [List.inj_on_of_nodup_map h (List.mem_of_find?_eq_some hfind) hedge hid]

/-- An edge is projected for the first time. -/
theorem upsert_new {edge : EdgeEvent} (h : ¬ (edge.id ≤ 0 ∨ edge.id ∈ db.projected)) :
    db.upsertPublicRouteSummariesTx edge =
      { db with
        projected := db.projected ++ [edge.id]
        summaries := projectRow db.summaries edge } := by
  unfold Database.upsertPublicRouteSummariesTx projectRow
  rw [if_neg h]
  cases publicRoutePulseFromEdge edge [] <;> rfl

theorem edges_upsert (db : Database) (edge : EdgeEvent) :
    (db.upsertPublicRouteSummariesTx edge).edges = db.edges ∧
      (db.upsertPublicRouteSummariesTx edge).observations = db.observations := by
  by_cases h : edge.id ≤ 0 ∨ edge.id ∈ db.projected
  · unfold Database.upsertPublicRouteSummariesTx
    rw [if_pos h]
    exact ⟨rfl, rfl⟩
  · rw [upsert_new h]
    exact ⟨rfl, rfl⟩

theorem ProjectionInv.upsert (h : ProjectionInv db) {edge row : EdgeEvent} (hrow : row ∈ db.edges)
    (hedge : edge = row ∨ edge = db.joined row) :
    ProjectionInv (db.upsertPublicRouteSummariesTx edge) := by
  have hid : edge.id = row.id := by rcases hedge with rfl | rfl <;> rfl
  by_cases hold : edge.id ≤ 0 ∨ edge.id ∈ db.projected
  · unfold Database.upsertPublicRouteSummariesTx
    rw [if_pos hold]
    exact h
  · rw [upsert_new hold]
    refine { ids := h.ids, bound := h.bound, known := ?_, summaries := ?_ }
    · intro id hmem
      rcases List.mem_append.mp hmem with hmem | hmem
      · exact h.known id hmem
      · rw [List.mem_singleton.mp hmem]
        exact ⟨row, hrow, hid.symm⟩
    · show projectRow db.summaries edge =
        ((db.projected ++ [edge.id]).filterMap (projectedRow db)).foldl projectRow []
      rw [List.filterMap_append, List.foldl_append, hid]
      simp only [List.filterMap_cons, projectedRow_of_mem h.ids hrow, List.filterMap_nil,
        List.foldl_cons, List.foldl_nil]
      show _ = projectRow ((projectedRows db).foldl projectRow []) row
      rw [← h.summaries]
      rcases hedge with rfl | rfl
      · rfl
      · exact projectRow_joined db _ _

theorem ProjectionInv.foldl_upsert {edges : List EdgeEvent} (h : ProjectionInv db)
    (hedges : ∀ edge ∈ edges, ∃ row ∈ db.edges, edge = db.joined row) :
    ProjectionInv (edges.foldl Database.upsertPublicRouteSummariesTx db) := by
  induction edges generalizing db with
  | nil => exact h
  | cons edge rest ih =>
    obtain ⟨row, hrow, heq⟩ := hedges edge (by simp)
    obtain ⟨hsame, hobservations⟩ := edges_upsert db edge
    refine ih (h.upsert hrow (Or.inr heq)) fun other hother => ?_
    obtain ⟨row, hrow, heq⟩ := hedges other (List.mem_cons_of_mem _ hother)
    refine ⟨row, hsame ▸ hrow, heq.trans ?_⟩
    unfold Database.joined
    rw [hobservations]

theorem ProjectionInv.commit (h : ProjectionInv db) (now : Int)
    (request : Database.LiveEdgeCommitRequest) :
    ProjectionInv (db.commitLiveEdge now request).1 := by
  suffices hcore : ProjectionInv
      (db.insertEdgeEventCoreTx request.edge request.resolutionStatus).1 from
    { hcore with ids := hcore.ids }
  cases hfind : db.edges.find? fun row =>
      row.ingestID = request.edge.ingestID ∧ row.ingestID ≠ "" with
  | some row =>
    rw [Database.insertEdgeEventCoreTx_repeated hfind]
    exact h
  | none =>
    obtain ⟨-, hedges, hsequence, hprojected, hsummaries⟩ :=
      Database.insertEdgeEventCoreTx_new hfind request.resolutionStatus
    generalize (db.insertEdgeEventCoreTx request.edge request.resolutionStatus).1 = after
      at hedges hsequence hprojected hsummaries
    -- the new edge takes an identifier that no projected edge has
    have hrows : projectedRows after = projectedRows db := by
      unfold projectedRows
      rw [hprojected]
      refine List.filterMap_congr fun id hid => ?_
      obtain ⟨edge, hedge, rfl⟩ := h.known id hid
      unfold projectedRow
      rw [hedges, List.find?_append]
      have hfound := projectedRow_of_mem h.ids hedge
      unfold projectedRow at hfound
      rw [hfound]
      rfl
    refine
      { ids := ?_
        bound := fun edge hedge => ?_
        known := fun id hid => ?_
        summaries := by rw [hsummaries, hrows]; exact h.summaries }
    · rw [hedges, List.map_append]
      refine List.nodup_append.mpr ⟨h.ids, by simp, ?_⟩
      intro id hid id' hid' heq
      obtain ⟨edge, hedge, rfl⟩ := List.mem_map.mp hid
      have := h.bound edge hedge
      simp only [List.map_cons, List.map_nil, List.mem_singleton] at hid'
      omega
    · rw [hedges] at hedge
      rw [hsequence]
      rcases List.mem_append.mp hedge with hedge | hedge
      · have := h.bound edge hedge
        omega
      · rw [List.mem_singleton.mp hedge]
    · rw [hprojected] at hid
      obtain ⟨edge, hedge, hedgeid⟩ := h.known id hid
      exact ⟨edge, hedges ▸ List.mem_append_left _ hedge, hedgeid⟩

/-- The run lemma. -/
theorem projectionInv : (edgeHistory).InductiveOn (fun _ _ => True) ProjectionInv where
  init db hdb := by
    obtain ⟨hedges, -, hprojected, hsummaries⟩ := hdb
    refine { ids := ?_, bound := ?_, known := ?_, summaries := ?_ }
    · rw [hedges]
      exact List.nodup_nil
    · simp [hedges]
    · simp [hprojected]
    · rw [hsummaries, projectedRows, hprojected]
      rfl
  step db act db' h _ hstep := by
    cases act with
    | commit now request =>
      cases hstep
      exact h.commit now request
    | project edge =>
      simp only [edgeHistory] at hstep
      split at hstep
      · rename_i hedge
        cases hstep
        exact h.upsert hedge (Or.inl rfl)
      · cases hstep
    | backfill since until_ limit =>
      cases hstep
      refine h.foldl_upsert fun edge hedge => ?_
      obtain ⟨row, hrow, rfl⟩ := List.mem_map.mp hedge
      have hrow := (List.mem_insertionSort _).mp (List.mem_of_mem_take hrow)
      exact ⟨row, List.mem_of_mem_filter hrow, rfl⟩

/-! ## Two histories -/

def admits (filter : PublicIATAFilter) (edge : EdgeEvent) : Bool := filter.allows edge.iata

/-- An observation without what the processing of a rejected edge changes. -/
def blind (filter : PublicIATAFilter) (packet : PacketObservation) : PacketObservation :=
  if filter.allows packet.iata then packet else { packet with resolutionStatus := "" }

/-- Two histories that differ in rejected edges only. -/
structure SameButRejected (filter : PublicIATAFilter) (db₁ db₂ : Database) : Prop where
  nodes : db₁.nodes = db₂.nodes
  observers : db₁.observers = db₂.observers
  observations : db₁.observations.map (blind filter) = db₂.observations.map (blind filter)
  edges : (db₁.edges.map db₁.joined).filter (admits filter) =
    (db₂.edges.map db₂.joined).filter (admits filter)
  /-- Admitted edges are projected in the same order. -/
  projected : ((projectedRows db₁).map db₁.joined).filter (admits filter) =
    ((projectedRows db₂).map db₂.joined).filter (admits filter)

def AllProjected (db : Database) : Prop := ∀ edge ∈ db.edges, edge.id ∈ db.projected

/-- The state that a refresh builds from a database at rest. -/
def publicView (filter : PublicIATAFilter) (packetLimit edgeLimit serverTime now : Int)
    (stats : PublicStats) (db : Database) : PublicLiveState :=
  buildPublicLiveState (filter.filterState
    (Database.liveState (fun _ => { db, now }) packetLimit edgeLimit serverTime)).1 stats now

structure SameView (a b : PublicLiveState) : Prop where
  routes : a.routes = b.routes
  recentPulses : a.recentPulses = b.recentPulses
  recentActivity : a.recentActivity = b.recentActivity

/-- The edges that a refresh considers, the most recent ones first. -/
def consideredEdges (db : Database) (now : Int) : List EdgeEvent :=
  ((db.edges.map db.joined).filter fun edge =>
    edge.heardAt ≤ now + Database.maxFutureEdgeSkew).insertionSort Database.heardEdgeBefore

def edgeRows (edgeLimit : Int) : Nat :=
  if edgeLimit ≤ 0 ∨ 2000 < edgeLimit then 200 else edgeLimit.toNat

/-- Nothing of the rejected edges shows. -/
structure Hidden (filter : PublicIATAFilter) (edgeLimit now : Int) (db : Database) : Prop where
  unmappable : ∀ edge ∈ db.edges, admits filter (db.joined edge) = false →
    mappableSegments edge = []
  uncrowded : Uncrowded (admits filter) (edgeRows edgeLimit) (consideredEdges db now)

/-! ## The reads -/

omit [LiveEnv] in
theorem heardEdgeBefore_total (a b : EdgeEvent) :
    Database.heardEdgeBefore a b ∨ Database.heardEdgeBefore b a := by
  unfold Database.heardEdgeBefore
  split <;> split <;> omega

omit [LiveEnv] in
theorem heardEdgeBefore_trans (a b c : EdgeEvent) (hab : Database.heardEdgeBefore a b)
    (hbc : Database.heardEdgeBefore b c) : Database.heardEdgeBefore a c := by
  unfold Database.heardEdgeBefore at *
  split at hab <;> split at hbc <;> split <;> omega

omit [LiveEnv] in
/-- The recent edges are the first considered ones. -/
theorem recentEdgeEvents_eq (db : Database) (edgeLimit now : Int) :
    db.recentEdgeEvents edgeLimit now = (consideredEdges db now).take (edgeRows edgeLimit) := by
  unfold Database.recentEdgeEvents consideredEdges edgeRows
  dsimp only
  rw [List.map_take, List.map_insertionSort Database.heardEdgeBefore Database.heardEdgeBefore
    db.joined _ fun _ _ _ _ => Iff.rfl, List.filter_map]
  rfl

/-- What the filter leaves of the recent edges. -/
theorem admitted_recentEdgeEvents {edgeLimit now : Int} (h : Hidden filter edgeLimit now db) :
    (db.recentEdgeEvents edgeLimit now).filter (admits filter) =
      ((((db.edges.map db.joined).filter (admits filter)).filter fun edge =>
        edge.heardAt ≤ now + Database.maxFutureEdgeSkew).insertionSort
          Database.heardEdgeBefore).take (edgeRows edgeLimit) := by
  rw [recentEdgeEvents_eq, filter_take_of_uncrowded h.uncrowded, consideredEdges,
    filter_insertionSort heardEdgeBefore_total heardEdgeBefore_trans, List.filter_filter,
    List.filter_filter]
  simp only [Bool.and_comm]

omit [LiveEnv] in
/-- The order of packets does not look at what `blind` takes away. -/
theorem heardPacketBefore_blind (filter : PublicIATAFilter) (a b : PacketObservation) :
    Database.heardPacketBefore a b ↔
      Database.heardPacketBefore (blind filter a) (blind filter b) := by
  have hkept : ∀ packet, (blind filter packet).heardAt = packet.heardAt ∧
      (blind filter packet).id = packet.id := fun packet => by
    unfold blind
    split <;> exact ⟨rfl, rfl⟩
  unfold Database.heardPacketBefore
  rw [(hkept a).1, (hkept a).2, (hkept b).1, (hkept b).2]

omit [LiveEnv] in
theorem filter_map_blind (filter : PublicIATAFilter) (l : List PacketObservation) :
    ((l.map (blind filter)).filter fun packet => filter.allows packet.iata) =
      l.filter fun packet => filter.allows packet.iata := by
  induction l with
  | nil => rfl
  | cons packet rest ih =>
    cases hallows : filter.allows packet.iata with
    | true =>
      have hsame : blind filter packet = packet := if_pos hallows
      simp [hsame, hallows, ih]
    | false =>
      have hblind : blind filter packet = { packet with resolutionStatus := "" } :=
        if_neg (by simp [hallows])
      simp [hblind, hallows, ih]

omit [LiveEnv] in
/-- What the filter leaves of the recent packets. -/
theorem admitted_recentPackets (filter : PublicIATAFilter) (db : Database) (limit now : Int) :
    ((db.recentPackets limit now).filter fun packet => filter.allows packet.iata) =
      ((((db.observations.map (blind filter)).filter fun packet =>
        packet.heardAt ≤ now + Database.maxFutureEdgeSkew).insertionSort
          Database.heardPacketBefore).take
        (if limit ≤ 0 ∨ 1000 < limit then 100 else limit.toNat)).filter
        fun packet => filter.allows packet.iata := by
  have hheard : ((fun packet : PacketObservation =>
      decide (packet.heardAt ≤ now + Database.maxFutureEdgeSkew)) ∘ blind filter) =
      fun packet => decide (packet.heardAt ≤ now + Database.maxFutureEdgeSkew) := by
    funext packet
    show decide ((blind filter packet).heardAt ≤ _) = _
    unfold blind
    split <;> rfl
  rw [List.filter_map, hheard, ← List.map_insertionSort Database.heardPacketBefore
    Database.heardPacketBefore (blind filter) _ fun a _ b _ => heardPacketBefore_blind filter a b,
    ← List.map_take, filter_map_blind]
  rfl

/-- The summaries are those of the admitted edges alone. -/
theorem summaries_of_hidden (h : ProjectionInv db) {edgeLimit now : Int}
    (hidden : Hidden filter edgeLimit now db) :
    db.summaries = (((projectedRows db).map db.joined).filter (admits filter)).foldl
      projectRow [] := by
  have hskip : ∀ (rows : List EdgeEvent) (start : List PublicRoute),
      (∀ row ∈ rows, row ∈ db.edges) →
      rows.foldl projectRow start =
        ((rows.map db.joined).filter (admits filter)).foldl projectRow start := by
    intro rows
    induction rows with
    | nil => exact fun _ _ => rfl
    | cons row rest ih =>
      intro start hrows
      rw [List.foldl_cons, List.map_cons]
      cases hadmits : admits filter (db.joined row) with
      | true =>
        rw [List.filter_cons_of_pos hadmits, List.foldl_cons, projectRow_joined]
        exact ih _ fun other hother => hrows other (List.mem_cons_of_mem _ hother)
      | false =>
        rw [List.filter_cons_of_neg (by simp [hadmits]),
          projectRow_of_unmappable (hidden.unmappable row (hrows row (by simp)) hadmits)]
        exact ih _ fun other hother => hrows other (List.mem_cons_of_mem _ hother)
  rw [h.summaries]
  refine hskip (projectedRows db) [] fun row hrow => ?_
  obtain ⟨id, -, hfound⟩ := List.mem_filterMap.mp hrow
  exact List.mem_of_find?_eq_some hfound

/-- **Rejected edges do not show.** -/
theorem rejected_edges_hidden (h₁ : (edgeHistory).Reachable db₁) (h₂ : (edgeHistory).Reachable db₂)
    (hsame : SameButRejected filter db₁ db₂) (packetLimit edgeLimit serverTime now : Int)
    (stats : PublicStats) (hidden₁ : Hidden filter edgeLimit now db₁)
    (hidden₂ : Hidden filter edgeLimit now db₂) :
    SameView (publicView filter packetLimit edgeLimit serverTime now stats db₁)
      (publicView filter packetLimit edgeLimit serverTime now stats db₂) := by
  have hinv₁ := projectionInv.invariant h₁
  have hinv₂ := projectionInv.invariant h₂
  have hsummaries : db₁.summaries = db₂.summaries := by
    rw [summaries_of_hidden hinv₁ hidden₁, summaries_of_hidden hinv₂ hidden₂, hsame.projected]
  have hedges : (db₁.recentEdgeEvents edgeLimit now).filter (admits filter) =
      (db₂.recentEdgeEvents edgeLimit now).filter (admits filter) := by
    rw [admitted_recentEdgeEvents hidden₁, admitted_recentEdgeEvents hidden₂, hsame.edges]
  have hpackets : ((db₁.recentPackets packetLimit now).filter fun packet =>
        filter.allows packet.iata) =
      (db₂.recentPackets packetLimit now).filter fun packet => filter.allows packet.iata := by
    rw [admitted_recentPackets, admitted_recentPackets, hsame.observations]
  have hfiltered : (filter.filterState (Database.liveState (fun _ => { db := db₁, now })
        packetLimit edgeLimit serverTime)).1 =
      (filter.filterState (Database.liveState (fun _ => { db := db₂, now }) packetLimit edgeLimit
        serverTime)).1 := by
    have hnodes : db₁.positionedNodes = db₂.positionedNodes := by
      unfold Database.positionedNodes
      rw [hsame.nodes]
    have hobservers : db₁.observersQuery = db₂.observersQuery := by
      unfold Database.observersQuery
      rw [hsame.observers]
    have hroutes : ∀ limit, db₁.publicRouteSummaries limit = db₂.publicRouteSummaries limit :=
      fun limit => by
        unfold Database.publicRouteSummaries
        rw [hsummaries]
    cases henabled : filter.enabled with
    | true =>
      unfold PublicIATAFilter.filterState Database.liveState
      simp only [henabled, Bool.not_true, Bool.false_eq_true, if_false, hnodes, hobservers,
        hroutes, hpackets]
      exact congrArg (fun edges => ({
        serverTime, nodes := _, observers := _, routes := _, recentPackets := _
        recentEdgeEvents := edges } : State)) hedges
    | false =>
      -- a disabled filter admits everything
      have hall : ∀ iata, filter.allows iata = true := PublicIATAFilter.allows_of_disabled henabled
      have hpackets' := hpackets
      simp only [hall, List.filter_true] at hpackets'
      have hedges' : db₁.recentEdgeEvents edgeLimit now = db₂.recentEdgeEvents edgeLimit now := by
        have hadmits : admits filter = fun _ => true := funext fun edge => hall edge.iata
        rw [hadmits, List.filter_true, List.filter_true] at hedges
        exact hedges
      unfold PublicIATAFilter.filterState Database.liveState
      simp only [henabled, Bool.not_false, if_true, hnodes, hobservers, hroutes, hpackets',
        hedges']
  unfold publicView
  rw [hfiltered]
  exact ⟨rfl, rfl, rfl⟩

end Env

/-! ## Runs -/

section Runs

attribute [local instance] defaultEnv

/-- A packet heard in Ottawa and one heard in Montreal. -/
def twoPackets : Database :=
  { emptyDatabase with observations := [samplePacket 1, { samplePacket 2 with iata := "YUL" }] }

theorem twoPackets_init : (edgeHistory).init twoPackets := ⟨rfl, rfl, rfl, rfl⟩

def edgeRequest (edge : EdgeEvent) : Database.LiveEdgeCommitRequest :=
  { edge, resolutionStatus := "resolved", publishPublicEvents := false, activityDedupeKey := ""
    routePulseDedupeKey := "", receivedAt := 1000 }

/-- The edge of the packet heard in Montreal. -/
def montrealEdge : EdgeEvent := { sampleEdge with observationID := 2, iata := "YUL" }

/-- Commit and projection of one edge, which gets the row `id`. -/
def committed (edge : EdgeEvent) (id : Int) : List EdgeAct :=
  [.commit 1000 (edgeRequest edge), .project { edge with id }]

def ottawaOnly : PublicIATAFilter := newPublicIATAFilter ["YOW"]

def runFrom (db : Database) (acts : List EdgeAct) : Database := ((edgeHistory).run db acts).getD db

theorem reachable_runFrom (acts : List EdgeAct)
    (h : ((edgeHistory).run twoPackets acts).isSome) :
    (edgeHistory).Reachable (runFrom twoPackets acts) := by
  refine TSys.reachable_of_run acts twoPackets_init ?_
  obtain ⟨db, hdb⟩ := Option.isSome_iff_exists.mp h
  rw [runFrom, hdb, Option.getD_some]

/-- Where only Ottawa is public, an edge of Montreal without a mappable segment
does not show. -/
theorem pathless_edge_hidden :
    SameView
      (publicView ottawaOnly 10 10 1000 1000 emptyPublicLiveState.stats
        (runFrom twoPackets
          (committed sampleEdge 1 ++ committed { montrealEdge with segments := [] } 2)))
      (publicView ottawaOnly 10 10 1000 1000 emptyPublicLiveState.stats
        (runFrom twoPackets (committed sampleEdge 1))) := by
  refine rejected_edges_hidden (reachable_runFrom _ (by decide +kernel))
    (reachable_runFrom _ (by decide +kernel)) ?_ 10 10 1000 1000 _ ?_ ?_
  · exact
      { nodes := by decide +kernel
        observers := by decide +kernel
        observations := by decide +kernel
        edges := by decide +kernel
        projected := by decide +kernel }
  · exact { unmappable := by decide +kernel, uncrowded := by decide +kernel }
  · exact { unmappable := by decide +kernel, uncrowded := by decide +kernel }

/-- Where only Ottawa is public, an edge heard in Montreal adds a route. -/
theorem excluded_edge_adds_route :
    ¬ ∀ (filter : PublicIATAFilter) (db₁ db₂ : Database), (edgeHistory).Reachable db₁ →
      (edgeHistory).Reachable db₂ → SameButRejected filter db₁ db₂ → AllProjected db₁ →
      AllProjected db₂ → ∀ (packetLimit edgeLimit serverTime now : Int) (stats : PublicStats),
      SameView (publicView filter packetLimit edgeLimit serverTime now stats db₁)
        (publicView filter packetLimit edgeLimit serverTime now stats db₂) := by
  intro h
  have hsame : SameButRejected ottawaOnly (runFrom twoPackets (committed montrealEdge 1))
      twoPackets :=
    { nodes := by decide +kernel
      observers := by decide +kernel
      observations := by decide +kernel
      edges := by decide +kernel
      projected := by decide +kernel }
  have hview := h ottawaOnly _ _ (reachable_runFrom _ (by decide +kernel))
    (.init twoPackets_init) hsame (by unfold AllProjected; decide +kernel)
    (by unfold AllProjected; decide +kernel) 10 10 1000 1000 emptyPublicLiveState.stats
  exact absurd hview.routes (by decide +kernel)

end Runs

end CartoLive.Theorems.RegionNoninterference
