import CartoLive.App.WorkerInvariant
import CartoLive.Store.RouteReads

/-!
# Route counts and the cursor

A browser that loads a served state and counts the route pulses after its cursor
ends with the counts of the route summaries exactly when the state has counted
the edges whose pulses are up to the cursor. The routes of a state come from a
read of the projected summaries, its cursor from the hub and from every event
that is applied live; a live route pulse moves the cursor and leaves the routes
alone.
-/

namespace CartoLive.Theorems.RouteCursor

open CartoLive.Lib CartoLive.Go CartoLive.Live CartoLive.Store CartoLive.App
open CartoLive.Store.Database (Query Read)
open CartoLive.Live.PublicStateCache (Quiet Applied)

/-! ## The backend with its ledger -/

/-- The backend with a ledger of its committed edges, each with the sequence of
its route pulse; zero stands for no pulse and for edges from before start-up. -/
structure Ledgered where
  backend : Backend
  ledger : List (EdgeEvent × Int)
  start : Int

/-- The sequence of the first route pulse among some rows. -/
def pulseSeq (rows : List PublicEvent) : Int :=
  ((rows.find? fun row => row.data.kind = .pulse).map PublicEvent.seq).getD 0

/-- The ledger entries of the edges that a step has stored. -/
def newEntries (s b : Backend) : List (EdgeEvent × Int) :=
  (b.db.edges.drop s.db.edges.length).map fun edge =>
    (edge, pulseSeq (b.rows.drop s.rows.length))

/-- What the route pulse of an event counts on a route. -/
def eventCount (r : String) (event : PublicEvent) : Int :=
  match event.data with
  | .pulse pulse => (pulse.segments.map (segmentWeight r)).sum
  | _ => 0

section Env

variable [LiveEnv]

def ledgeredStep (config : Config) (s : Ledgered) (a : BackendAct) : Option Ledgered :=
  (backendStep config s.backend a).map fun b =>
    { s with backend := b, ledger := s.ledger ++ newEntries s.backend b }

/-- The backend from start-up on a database in step, with every region public. -/
def ledgered (config : Config) : TSys Ledgered BackendAct where
  init s := (backend config).init s.backend ∧ s.backend.cache.filter.enabled = false ∧
    s.backend.db.Consistent ∧ s.ledger = s.backend.db.edges.map (fun edge => (edge, 0)) ∧
    s.start = s.backend.hubSeq
  step := ledgeredStep config

/-! ## The property and its condition -/

/-- The counts of a served state and of the route pulses after its cursor add up
to the summaries once all edges are projected. -/
def CountsAddUp (db : Database) (state : PublicLiveState) : Prop :=
  ∀ r, routeCounting.tally r state.routes +
      ((db.publicEvents.rows.filter fun row =>
        state.stats.latestSeq < row.seq).map (eventCount r)).sum =
    routeCounting.tally r db.projectAll.summaries

/-- Both served forms of the cached state add up. -/
def ServedCountsAddUp (s : Backend) : Prop :=
  (∀ state ∈ s.cache.snapshot, CountsAddUp s.db state) ∧
    ∀ state ∈ s.cache.serializedState, CountsAddUp s.db state

/-- A message is new to the edges and to the events, or known to both with the
same segments: ingest identifiers belong to one message. -/
def MessageOk (s : Backend) (now : Int) (request : Database.LiveEdgeCommitRequest) : Prop :=
  match s.db.edges.find? fun row =>
    row.ingestID = request.edge.ingestID ∧ row.ingestID ≠ "" with
  | none => ∀ x ∈ (s.db.commitLiveEdge now request).2.2, x.2 = true
  | some row => row.segments = request.edge.segments ∧
      ∀ x ∈ (s.db.commitLiveEdge now request).2.2, x.2 = false

/-- The condition on a replacement. The read fits the limits; it has counted an
edge on each route of its segments exactly when the edge's pulse is up to the
sequence that the hub reported; and no preserved item carries the cursor from
there over a pulse. -/
def ReplaceOk (config : Config) (s : Ledgered) (r : Refresh) (reads : Query → Read)
    (latestSeq : Int) (fresh : PublicLiveState) : Prop :=
  (reads .routes).db.summaries.length ≤
      Database.summaryLimit (max config.recentEdgeEventLimit 2500) ∧
    fresh.routes.length ≤ publicCacheMaxRoutes ∧
    (∀ entry ∈ s.ledger, ∀ segment ∈ mappableSegments entry.1,
      (entry.1.id ∈ readEdges reads config.recentEdgeEventLimit (segmentRoute segment) ↔
        entry.2 ≤ latestSeq)) ∧
    (s.backend.cache.ready = true → ∀ k ∈ [Kind.node, .activity, .pulse],
      ∀ x ∈ s.backend.cache.preserved r.generation k, ∀ entry ∈ s.ledger,
        latestSeq < entry.2 → x.seq < entry.2)

/-- The condition on a step. -/
def StepOk (config : Config) (s : Ledgered) : BackendAct → Prop
  | .commitEdge ingestID edge status receivedAt now =>
    MessageOk s.backend now
      (liveEdgeCommitRequest s.backend.cache.filter ingestID edge status receivedAt)
  | .publish _ =>
    -- an update of a ready cache moves the cursor over no route pulse
    s.backend.cache.ready = true → ∀ p ∈ s.backend.pending.head?, p.2 = .apply →
      ∀ entry ∈ s.ledger, s.backend.cursor < entry.2 → p.1.seq < entry.2
  | .refreshReplace env now =>
    ∀ r ∈ s.backend.refresh, ∀ reads ∈ r.completed, ∀ latestSeq ∈ r.latestSeq,
      ReplaceOk config s r reads latestSeq
        (refreshedState config s.backend reads r.serverTime latestSeq env now).1
  | _ => True

instance (s : Backend) (now : Int) (request : Database.LiveEdgeCommitRequest) :
    Decidable (MessageOk s now request) := by
  unfold MessageOk
  split <;> infer_instance

instance (config : Config) (s : Ledgered) (r : Refresh) (reads : Query → Read) (latestSeq : Int)
    (fresh : PublicLiveState) : Decidable (ReplaceOk config s r reads latestSeq fresh) := by
  unfold ReplaceOk
  infer_instance

instance (config : Config) (s : Ledgered) (a : BackendAct) : Decidable (StepOk config s a) := by
  unfold StepOk
  split <;> infer_instance

/-! ## Sums over a selection -/

omit [LiveEnv] in
/-- A selection of items that weigh nothing. -/
theorem sum_filter_eq_zero {α : Type} {l : List α} {p : α → Prop} [DecidablePred p]
    {weigh : α → Int} (h : ∀ x ∈ l, p x → weigh x = 0) :
    ((l.filter p).map weigh).sum = 0 := by
  refine List.sum_eq_zero fun n hn => ?_
  obtain ⟨x, hx, rfl⟩ := List.mem_map.mp hn
  exact h x (List.mem_of_mem_filter hx) (of_decide_eq_true (List.mem_filter.mp hx).2)

omit [LiveEnv] in
/-- A sum over a selection depends only on the items that weigh something. -/
theorem sum_filter_congr {α : Type} {l : List α} {p q : α → Prop} [DecidablePred p]
    [DecidablePred q] {weigh : α → Int} (h : ∀ x ∈ l, weigh x ≠ 0 → (p x ↔ q x)) :
    ((l.filter p).map weigh).sum = ((l.filter q).map weigh).sum := by
  induction l with
  | nil => rfl
  | cons x l ih =>
    have ih' := ih fun y hy => h y (List.mem_cons_of_mem _ hy)
    by_cases hx : weigh x = 0
    · by_cases hp : p x <;> by_cases hq : q x <;> simp [hp, hq, hx, ih']
    · have hpq := h x List.mem_cons_self hx
      by_cases hp : p x
      · simp [hp, hpq.mp hp, ih']
      · simp [hp, mt hpq.mpr hp, ih']

omit [LiveEnv] in
/-- A sum splits along a bound. -/
theorem sum_filter_le_add_lt {α : Type} (l : List α) (stamp weigh : α → Int) (n : Int) :
    ((l.filter fun x => stamp x ≤ n).map weigh).sum +
      ((l.filter fun x => n < stamp x).map weigh).sum = (l.map weigh).sum := by
  induction l with
  | nil => rfl
  | cons x l ih =>
    by_cases hx : stamp x ≤ n
    · have hnot : ¬ n < stamp x := by omega
      simp only [List.filter_cons, hx, hnot, decide_true, decide_false, if_true, List.map_cons,
        List.sum_cons, Bool.false_eq_true, if_false]
      omega
    · have hlt : n < stamp x := by omega
      simp only [List.filter_cons, hx, hlt, decide_true, decide_false, if_true, List.map_cons,
        List.sum_cons, Bool.false_eq_true, if_false]
      omega

/-- What an entry of the ledger counts on a route. -/
def entryCount (r : String) (entry : EdgeEvent × Int) : Int := edgeCount r entry.1

/-- The ledger up to a cursor is what a state with that cursor should count. -/
def Counts (ledger : List (EdgeEvent × Int)) (state : PublicLiveState) : Prop :=
  ∀ r, routeCounting.tally r state.routes =
    ((ledger.filter fun entry => entry.2 ≤ state.stats.latestSeq).map (entryCount r)).sum

/-- New entries that are beyond a cursor, or count nothing, change nothing. -/
theorem Counts.append {ledger : List (EdgeEvent × Int)} {state : PublicLiveState}
    (h : Counts ledger state) {more : List (EdgeEvent × Int)}
    (hmore : ∀ entry ∈ more, state.stats.latestSeq < entry.2 ∨ ∀ r, entryCount r entry = 0) :
    Counts (ledger ++ more) state := by
  intro r
  have hnone : ((more.filter fun entry => entry.2 ≤ state.stats.latestSeq).map
      (entryCount r)).sum = 0 := sum_filter_eq_zero fun entry hentry hle => by
    rcases hmore entry hentry with hlt | hzero
    · omega
    · exact hzero r
  rw [h r, List.filter_append, List.map_append, List.sum_append, hnone, Int.add_zero]

/-- A later cursor with no pulse in between. -/
theorem Counts.advance {ledger : List (EdgeEvent × Int)} {state state' : PublicLiveState}
    (h : Counts ledger state) (hroutes : state'.routes = state.routes)
    (hle : state.stats.latestSeq ≤ state'.stats.latestSeq)
    (hbetween : ∀ entry ∈ ledger, state.stats.latestSeq < entry.2 →
      state'.stats.latestSeq < entry.2) : Counts ledger state' := by
  intro r
  rw [hroutes, h r]
  refine sum_filter_congr fun entry hentry _ => ⟨fun hold => by omega, fun hnew => ?_⟩
  by_contra hlt
  have := hbetween entry hentry (by omega)
  omega

/-! ## The tables -/

omit [LiveEnv] in
/-- A later state of the edge table: the edges added have higher identifiers. -/
def Extends (d db : Database) : Prop :=
  d.edgeSequence ≤ db.edgeSequence ∧
    ∃ newer, db.edges = d.edges ++ newer ∧ ∀ edge ∈ newer, d.edgeSequence < edge.id

omit [LiveEnv] in
theorem Extends.trans {d e f : Database} (h : Extends d e) (h' : Extends e f) : Extends d f := by
  obtain ⟨hle, newer, hnewer, hall⟩ := h
  obtain ⟨hle', newer', hnewer', hall'⟩ := h'
  refine ⟨hle.trans hle', newer ++ newer', by rw [hnewer', hnewer, List.append_assoc], ?_⟩
  intro edge hedge
  rcases List.mem_append.mp hedge with hedge | hedge
  · exact hall edge hedge
  · have := hall' edge hedge
    omega

omit [LiveEnv] in
/-- Old identifiers select the same edges in a later table. -/
theorem Extends.filter {d db : Database} (h : Extends d db) {selected : List Int}
    (hselected : ∀ id ∈ selected, id ≤ d.edgeSequence) :
    (db.edges.filter fun edge => edge.id ∈ selected) =
      d.edges.filter fun edge => edge.id ∈ selected := by
  obtain ⟨-, newer, hnewer, hall⟩ := h
  have hnil : (newer.filter fun edge => edge.id ∈ selected) = [] := by
    rw [List.filter_eq_nil_iff]
    intro edge hedge hin
    have := hall edge hedge
    have := hselected edge.id (of_decide_eq_true hin)
    omega
  rw [hnewer, List.filter_append, hnil, List.append_nil]

omit [LiveEnv] in
theorem mem_recentIDs_le {db : Database} (h : ∀ edge ∈ db.edges, edge.id ≤ db.edgeSequence)
    {limit now id : Int} (hid : id ∈ db.recentIDs limit now) : id ≤ db.edgeSequence := by
  obtain ⟨edge, hedge, rfl⟩ := List.mem_map.mp hid
  obtain ⟨row, hrow, rfl⟩ := List.mem_map.mp hedge
  exact h row (List.mem_of_mem_filter ((List.mem_insertionSort _).mp (List.mem_of_mem_take hrow)))

/-- The identifiers that a read has counted are those of its own database. -/
theorem mem_readEdges_le {reads : Query → Read} (h : ∀ q, (reads q).db.Consistent)
    {edgeLimit : Int} {r : String} {id : Int} (hid : id ∈ readEdges reads edgeLimit r) :
    id ≤ (readDatabase reads r).edgeSequence := by
  unfold readEdges at hid
  unfold readDatabase
  split at hid
  · rename_i hr
    rw [if_pos hr]
    exact (h .routes).projected_le id hid
  · rename_i hr
    rw [if_neg hr]
    exact mem_recentIDs_le (fun edge hedge => ((h .edges).bounded edge hedge).2) hid

/-- An edge that counts on a route has a segment of it. -/
theorem exists_segment_of_edgeCount {r : String} {edge : EdgeEvent} (h : edgeCount r edge ≠ 0) :
    ∃ segment ∈ mappableSegments edge, segmentRoute segment = r := by
  by_contra hnone
  push Not at hnone
  refine h ?_
  rw [edgeCount, List.countP_eq_zero.mpr fun segment hsegment => by
    simpa using hnone segment hsegment]
  rfl

/-! ## What a step does to the tables -/

/-- A step on the tables, as far as edges and route pulses go. -/
structure TableStep (s b : Backend) : Prop where
  consistent : b.db.Consistent
  extends_ : Extends s.db b.db
  edges : b.db.edges = s.db.edges ++ (newEntries s b).map Prod.fst
  fresh : ∀ entry ∈ newEntries s b, s.sequence < entry.2 ∨ ∀ r, entryCount r entry = 0
  rows : ∀ r n, ((b.rows.filter fun row => n < row.seq).map (eventCount r)).sum =
    ((s.rows.filter fun row => n < row.seq).map (eventCount r)).sum +
      (((newEntries s b).filter fun entry => n < entry.2).map (entryCount r)).sum
  knows : ∀ edge, edge ∈ b.toProject ∨ edge ∈ b.projectionQueue → b.db.Knows edge

variable {s b : Backend}

/-- A step that stores no edge and no route pulse. -/
theorem tableStep_plain (hconsistent : b.db.Consistent) (hedges : b.db.edges = s.db.edges)
    (hsequence : b.db.edgeSequence = s.db.edgeSequence) (created : List PublicEvent)
    (hrows : b.rows = s.rows ++ created) (hcreated : ∀ e ∈ created, e.data.kind ≠ .pulse)
    (hknows : ∀ edge, edge ∈ b.toProject ∨ edge ∈ b.projectionQueue → b.db.Knows edge) :
    TableStep s b := by
  have hnew : newEntries s b = [] := by simp [newEntries, hedges]
  have hcount : ∀ r, ∀ e ∈ created, eventCount r e = 0 := by
    intro r e he
    have := hcreated e he
    unfold eventCount
    cases hdata : e.data <;> simp [hdata, PublicData.kind] at this ⊢
  exact
    { consistent := hconsistent
      extends_ := ⟨hsequence.ge, [], by simp [hedges], by simp⟩
      edges := by simp [hnew, hedges]
      fresh := by simp [hnew]
      rows := fun r n => by
        have hzero : ((created.filter fun row => n < row.seq).map (eventCount r)).sum = 0 :=
          sum_filter_eq_zero fun e he _ => hcount r e he
        rw [hrows, List.filter_append, List.map_append, List.sum_append, hzero, hnew]
        simp
      knows := hknows }

omit [LiveEnv] in
/-- An edge table with the same edges knows the same edges. -/
theorem knows_congr {db db' : Database} (h : db'.edges = db.edges) {edge : EdgeEvent}
    (hk : db.Knows edge) : db'.Knows edge := by
  obtain ⟨row, hrow, heq⟩ := hk
  exact ⟨row, h ▸ hrow, heq⟩

/-- The data of an edge's events: nothing, or an activity and the pulse. -/
theorem data_edgeEvents (edge : EdgeEvent) (activityKey pulseKey : String) (receivedAt now : Int) :
    (publicRoutePulseFromEdge edge [] = none ∧
        (Database.edgeEvents edge activityKey pulseKey receivedAt now).map PublicEvent.data = []) ∨
      ∃ activity pulse, publicRoutePulseFromEdge edge [] = some pulse ∧
        (Database.edgeEvents edge activityKey pulseKey receivedAt now).map PublicEvent.data =
          [.activity activity, .pulse pulse] := by
  unfold Database.edgeEvents publicActivityFromEdge
  cases h : publicRoutePulseFromEdge edge [] with
  | none => exact Or.inl ⟨rfl, rfl⟩
  | some pulse => exact Or.inr ⟨_, pulse, rfl, rfl⟩

/-- Storing the edge and the events of a new message. -/
theorem tableStep_new (edge : EdgeEvent) (hs : s.db.Consistent)
    (hedges : b.db.edges = s.db.edges ++ [{ edge with id := s.db.edgeSequence + 1 }])
    (hsequence : b.db.edgeSequence = s.db.edgeSequence + 1)
    (hprojected : b.db.projected = s.db.projected) (hsummaries : b.db.summaries = s.db.summaries)
    {created : List PublicEvent} (hrows : b.rows = s.rows ++ created)
    (hfresh : ∀ e ∈ created, s.sequence < e.seq)
    (hdata : (publicRoutePulseFromEdge { edge with id := s.db.edgeSequence + 1 } [] = none ∧
        created.map PublicEvent.data = []) ∨
      ∃ activity pulse,
        publicRoutePulseFromEdge { edge with id := s.db.edgeSequence + 1 } [] = some pulse ∧
        created.map PublicEvent.data = [.activity activity, .pulse pulse])
    (hknows : ∀ e, e ∈ b.toProject ∨ e ∈ b.projectionQueue → b.db.Knows e) : TableStep s b := by
  have hnew : newEntries s b =
      [({ edge with id := s.db.edgeSequence + 1 }, pulseSeq created)] := by
    simp [newEntries, hedges, hrows]
  have hconsistent : b.db.Consistent := hs.append edge hedges hsequence hprojected hsummaries
  have hextends : Extends s.db b.db := by
    refine ⟨by omega, _, hedges, fun e he => ?_⟩
    rw [List.mem_singleton.mp he]
    show s.db.edgeSequence < s.db.edgeSequence + 1
    omega
  have hfst : b.db.edges = s.db.edges ++ (newEntries s b).map Prod.fst := by rw [hnew]; exact hedges
  rcases hdata with ⟨hnone, hnil⟩ | ⟨activity, pulse, hpulse, hpair⟩
  · -- no segment is mappable: no event, and nothing to count
    have hcreated : created = [] := List.map_eq_nil_iff.mp hnil
    have hzero : ∀ r, edgeCount r { edge with id := s.db.edgeSequence + 1 } = 0 :=
      edgeCount_of_no_pulse hnone
    refine ⟨hconsistent, hextends, hfst, fun entry hentry => Or.inr fun r => ?_, fun r n => ?_,
      hknows⟩
    · rw [hnew] at hentry
      rw [List.mem_singleton.mp hentry]
      exact hzero r
    · have hentries : (((newEntries s b).filter fun entry => n < entry.2).map
          (entryCount r)).sum = 0 := sum_filter_eq_zero fun entry hentry _ => by
        rw [hnew] at hentry
        rw [List.mem_singleton.mp hentry]
        exact hzero r
      rw [hentries, hrows, hcreated]
      simp
  · -- the activity and the pulse
    obtain ⟨first, rest, rfl, hfirst, hrest⟩ := List.map_eq_cons_iff.mp hpair
    obtain ⟨second, tail, rfl, hsecond, htail⟩ := List.map_eq_cons_iff.mp hrest
    have htail' : tail = [] := List.map_eq_nil_iff.mp htail
    subst htail'
    have hseq : pulseSeq [first, second] = second.seq := by
      simp [pulseSeq, hfirst, hsecond, PublicData.kind]
    have hcountFirst : ∀ r, eventCount r first = 0 := fun r => by simp [eventCount, hfirst]
    have hcountSecond : ∀ r, eventCount r second =
        edgeCount r { edge with id := s.db.edgeSequence + 1 } := fun r => by
      simp only [eventCount, hsecond]
      exact sum_segmentWeight_pulse hpulse r
    refine ⟨hconsistent, hextends, hfst, fun entry hentry => Or.inl ?_, fun r n => ?_, hknows⟩
    · rw [hnew] at hentry
      rw [List.mem_singleton.mp hentry, hseq]
      exact hfresh second (by simp)
    · rw [hrows, hnew, hseq, List.filter_append, List.map_append, List.sum_append]
      congr 1
      by_cases h1 : n < first.seq <;> by_cases h2 : n < second.seq <;>
        simp [h1, h2, hcountFirst, hcountSecond, entryCount]

/-- A step that leaves the database alone. -/
theorem tableStep_same (hs : s.db.Consistent)
    (hknows : ∀ edge, edge ∈ s.toProject ∨ edge ∈ s.projectionQueue → s.db.Knows edge)
    (hdb : b.db = s.db) (hproject : ∀ edge, edge ∈ b.toProject ∨ edge ∈ b.projectionQueue →
      edge ∈ s.toProject ∨ edge ∈ s.projectionQueue) : TableStep s b :=
  tableStep_plain (hdb ▸ hs) (by rw [hdb]) (by rw [hdb]) [] (by rw [Backend.rows, hdb, List.append_nil])
    (by simp) fun edge hedge => hdb ▸ hknows edge (hproject edge hedge)

/-- `CommitLiveEdge` with every region public. -/
theorem tableStep_commitEdge {ingestID : String} {edge : EdgeEvent} {status : String}
    {receivedAt now : Int} (hs : s.db.Consistent)
    (hknows : ∀ edge, edge ∈ s.toProject ∨ edge ∈ s.projectionQueue → s.db.Knows edge)
    (hdisabled : s.cache.filter.enabled = false) {request : Database.LiveEdgeCommitRequest}
    (hrequest : request =
      liveEdgeCommitRequest s.cache.filter ingestID edge status receivedAt)
    (hok : MessageOk s now request) (hdb : b.db = (s.db.commitLiveEdge now request).1)
    (hproject : b.toProject = some (s.db.commitLiveEdge now request).2.1)
    (hqueue : b.projectionQueue = s.projectionQueue) : TableStep s b := by
  have hpublish : request.publishPublicEvents = true := by
    rw [hrequest]
    exact PublicIATAFilter.allows_of_disabled hdisabled edge.iata
  obtain ⟨hrows, -, hfresh⟩ := PublicEventTable.insertPublicEventsOnce_spec
    (s.db.insertEdgeEventCoreTx request.edge request.resolutionStatus).1.publicEvents now
    (Database.edgeEvents (s.db.insertEdgeEventCoreTx request.edge request.resolutionStatus).2
      request.activityDedupeKey request.routePulseDedupeKey request.receivedAt now)
  have hdata := PublicEventTable.data_insertPublicEventsOnce
    (s.db.insertEdgeEventCoreTx request.edge request.resolutionStatus).1.publicEvents now
    (Database.edgeEvents (s.db.insertEdgeEventCoreTx request.edge request.resolutionStatus).2
      request.activityDedupeKey request.routePulseDedupeKey request.receivedAt now)
  unfold MessageOk at hok
  simp only [Database.commitLiveEdge, hpublish, if_true] at hdb hproject hok
  rw [publicEvents_insertEdgeEventCoreTx] at hrows hfresh hdata hdb hok
  cases hfind : s.db.edges.find? fun row =>
      row.ingestID = request.edge.ingestID ∧ row.ingestID ≠ "" with
  | none =>
    obtain ⟨hstored, hedges, hsequence, hprojected, hsummaries⟩ :=
      Database.insertEdgeEventCoreTx_new hfind request.resolutionStatus
    rw [hfind] at hok
    rw [hstored] at hrows hfresh hdata hdb hok hproject
    refine tableStep_new request.edge hs (by rw [hdb]; exact hedges)
      (by rw [hdb]; exact hsequence) (by rw [hdb]; exact hprojected)
      (by rw [hdb]; exact hsummaries) (by rw [Backend.rows, hdb]; exact hrows) hfresh ?_
      fun e he => ?_
    · rw [PublicEventTable.createdRows_of_all hok, List.map_map]
      have hcomp : ((PublicEvent.data ∘ Prod.fst) : PublicEvent × Bool → PublicData) =
        fun x => x.1.data := rfl
      rw [hcomp, hdata]
      exact data_edgeEvents ..
    · have hall : b.db.edges = s.db.edges ++ [{ request.edge with id := s.db.edgeSequence + 1 }] := by
        rw [hdb]; exact hedges
      rcases he with he | he
      · rw [hproject] at he
        cases he
        exact ⟨_, hall ▸ List.mem_append_right _ List.mem_cons_self, rfl, rfl⟩
      · obtain ⟨row, hrow, heq⟩ := hknows e (Or.inr (hqueue ▸ he))
        exact ⟨row, hall ▸ List.mem_append_left _ hrow, heq⟩
  | some row =>
    have hrepeated := Database.insertEdgeEventCoreTx_repeated hfind request.resolutionStatus
    rw [hfind] at hok
    rw [hrepeated] at hrows hfresh hdb hok hproject
    obtain ⟨hsegments, hnone⟩ := hok
    have hedges : b.db.edges = s.db.edges := by rw [hdb]
    refine tableStep_plain ?_ hedges (by rw [hdb]) _ (by rw [Backend.rows, hdb]; exact hrows)
      (by rw [PublicEventTable.createdRows_of_none hnone]; simp) fun e he => ?_
    · exact hs.congr hedges (by rw [hdb]) (by rw [hdb]) (by rw [hdb])
    · rcases he with he | he
      · rw [hproject] at he
        cases he
        exact ⟨row, hedges ▸ List.mem_of_find?_eq_some hfind, rfl, hsegments⟩
      · exact knows_congr hedges (hknows e (Or.inr (hqueue ▸ he)))

/-- `InsertPublicEventsOnce` of events that are no route pulses. -/
theorem tableStep_insert (now : Int) (hs : s.db.Consistent)
    (hknows : ∀ edge, edge ∈ s.toProject ∨ edge ∈ s.projectionQueue → s.db.Knows edge)
    {events : List PublicEvent} (hevents : ∀ e ∈ events, e.data.kind ≠ .pulse)
    (hedges : b.db.edges = s.db.edges) (hsequence : b.db.edgeSequence = s.db.edgeSequence)
    (hprojected : b.db.projected = s.db.projected) (hsummaries : b.db.summaries = s.db.summaries)
    (hpublicEvents :
      b.db.publicEvents = (s.db.publicEvents.insertPublicEventsOnce now events).1)
    (hproject : b.toProject = s.toProject) (hqueue : b.projectionQueue = s.projectionQueue) :
    TableStep s b := by
  obtain ⟨hrows, -, -⟩ :=
    PublicEventTable.insertPublicEventsOnce_spec s.db.publicEvents now events
  refine tableStep_plain (hs.congr hedges hsequence hprojected hsummaries) hedges hsequence
    _ (by rw [Backend.rows, hpublicEvents]; exact hrows) (fun e he => ?_) fun edge hedge => ?_
  · obtain ⟨event, hevent, hdata⟩ :=
      List.mem_map.mp (PublicEventTable.data_of_mem_createdRows he)
    exact hdata ▸ hevents event hevent
  · rw [hproject, hqueue] at hedge
    exact knows_congr hedges (hknows edge hedge)

/-- What every step of the backend does to the tables. -/
theorem tableStep_of_step {config : Config} {s : Ledgered} {b : Backend} {a : BackendAct}
    (hs : s.backend.db.Consistent)
    (hknows : ∀ edge, edge ∈ s.backend.toProject ∨ edge ∈ s.backend.projectionQueue →
      s.backend.db.Knows edge)
    (hdisabled : s.backend.cache.filter.enabled = false) (hok : StepOk config s a)
    (h : backendStep config s.backend a = some b) : TableStep s.backend b := by
  cases a with
  | commitEdge ingestID edge status receivedAt now =>
    simp only [backendStep] at h
    split at h <;> cases h
    exact tableStep_commitEdge hs hknows hdisabled rfl hok rfl rfl rfl
  | commitActivity ingestID packet status location receivedAt now =>
    simp only [backendStep] at h
    split at h <;> cases h
    refine tableStep_insert now hs hknows (fun e he => ?_) rfl rfl rfl rfl rfl rfl rfl
    obtain ⟨-, rfl⟩ : s.backend.cache.filter.allows packet.iata = true ∧ _ = e := by
      simpa using he
    exact Kind.noConfusion
  | commitNode node iata dedupeKey now =>
    simp only [backendStep] at h
    split at h <;> cases h
    refine tableStep_insert now hs hknows (fun e he => ?_) rfl rfl rfl rfl rfl rfl rfl
    obtain ⟨item, -, rfl⟩ := List.mem_map.mp he
    exact Kind.noConfusion
  | publish now =>
    simp only [backendStep] at h
    split at h <;> cases h
    rename_i event op rest hpending
    cases op <;> exact tableStep_same hs hknows rfl fun _ hedge => hedge
  | enqueueEdgeProjection =>
    simp only [backendStep] at h
    split at h
    · rename_i edge hpending hproject
      split at h
      · cases h
        exact tableStep_same hs hknows rfl fun e he => Or.inr (he.resolve_left (by simp))
      · split at h <;> cases h
        refine tableStep_same hs hknows rfl fun e he => ?_
        rcases List.mem_append.mp (he.resolve_left (by simp)) with he | he
        · exact Or.inr he
        · exact Or.inl (hproject ▸ congrArg some (List.mem_singleton.mp he).symm)
    · cases h
  | project =>
    simp only [backendStep] at h
    split at h <;> cases h
    rename_i edge rest hqueue
    refine tableStep_plain (hs.upsert (hknows edge (Or.inr (hqueue ▸ List.mem_cons_self))))
      (edges_upsert _ _) (edgeSequence_upsert _ _) [] ?_ (by simp) fun e he => ?_
    · rw [Backend.rows, publicEvents_upsert, List.append_nil]
    · exact knows_congr (edges_upsert _ _)
        (hknows e (he.imp_right fun hin => hqueue ▸ List.mem_cons_of_mem _ hin))
  | projectFails =>
    cases h
    exact tableStep_same hs hknows rfl fun e he => he.imp_right List.mem_of_mem_tail
  | backfill since until_ limit =>
    cases h
    obtain ⟨hconsistent, hedges, hsequence⟩ := hs.backfill since until_ limit
    refine tableStep_plain hconsistent hedges hsequence [] ?_ (by simp) fun e he => ?_
    · rw [List.append_nil]
      exact congrArg PublicEventTable.rows (publicEvents_foldl_upsert _ _)
    · exact knows_congr hedges (hknows e he)
  | writeTables nodes observers observations =>
    cases h
    refine tableStep_plain (hs.congr rfl rfl rfl rfl) rfl rfl [] (List.append_nil _).symm (by simp)
      fun e he => knows_congr rfl (hknows e he)
  | storePacketCount count =>
    cases h
    exact tableStep_same hs hknows rfl fun _ hedge => hedge
  | setPacketCount =>
    cases h
    exact tableStep_same hs hknows rfl fun _ hedge => hedge
  | refreshBegin serverTime =>
    simp only [backendStep] at h
    split at h <;> cases h
    exact tableStep_same hs hknows rfl fun _ hedge => hedge
  | refreshRead query now =>
    obtain ⟨r, hr, h⟩ := Option.bind_eq_some_iff.mp h
    split at h <;> cases h
    exact tableStep_same hs hknows rfl fun _ hedge => hedge
  | refreshReadHub =>
    obtain ⟨r, hr, h⟩ := Option.bind_eq_some_iff.mp h
    split at h <;> cases h
    exact tableStep_same hs hknows rfl fun _ hedge => hedge
  | refreshReplace env now =>
    obtain ⟨r, hr, h⟩ := Option.bind_eq_some_iff.mp h
    obtain ⟨reads, hreads, h⟩ := Option.bind_eq_some_iff.mp h
    obtain ⟨latestSeq, hl, h⟩ := Option.bind_eq_some_iff.mp h
    cases h
    exact tableStep_same hs hknows rfl fun _ hedge => hedge
  | refreshFail =>
    simp only [backendStep] at h
    split at h <;> cases h
    exact tableStep_same hs hknows rfl fun _ hedge => hedge

/-! ## The tables of a run -/

/-- The ledger lists the stored edges, and beyond the start it counts what the
route pulses of the event stream count. -/
structure TableInv (s : Ledgered) : Prop where
  consistent : s.backend.db.Consistent
  knows : ∀ edge, edge ∈ s.backend.toProject ∨ edge ∈ s.backend.projectionQueue →
    s.backend.db.Knows edge
  disabled : s.backend.cache.filter.enabled = false
  ledger : s.ledger.map Prod.fst = s.backend.db.edges
  rows : ∀ r n, s.start ≤ n →
    ((s.backend.rows.filter fun row => n < row.seq).map (eventCount r)).sum =
      ((s.ledger.filter fun entry => n < entry.2).map (entryCount r)).sum
  snapshots : ∀ r, s.backend.refresh = some r → ∀ q read, r.reads q = some read →
    read.db.Consistent ∧ Extends read.db s.backend.db

theorem tableInv_init {config : Config} {s : Ledgered} (hs : (ledgered config).init s) :
    TableInv s := by
  obtain ⟨hinit, hdisabled, hconsistent, hledger, hstart⟩ := hs
  obtain ⟨-, hhub, ⟨-, hproject⟩, hqueue, hrefresh⟩ := hinit
  have hnonneg : 0 ≤ s.start :=
    hstart ▸ hhub ▸ s.backend.db.publicEvents.latestPublicSeq_nonneg
  refine
    { consistent := hconsistent
      knows := by simp [hproject, hqueue]
      disabled := hdisabled
      ledger := by rw [hledger, List.map_map]; exact List.map_id _
      rows := fun r n hn => ?_
      snapshots := by simp [hrefresh] }
  have hrows : (s.backend.rows.filter fun row => n < row.seq) = [] := by
    rw [List.filter_eq_nil_iff]
    intro row hrow hlt
    have := PublicEventTable.seq_le_latestPublicSeq hrow
    have := of_decide_eq_true hlt
    omega
  have hentries : (s.ledger.filter fun entry => n < entry.2) = [] := by
    rw [List.filter_eq_nil_iff, hledger]
    intro entry hentry hlt
    obtain ⟨edge, -, rfl⟩ := List.mem_map.mp hentry
    have : n < 0 := of_decide_eq_true hlt
    omega
  rw [hrows, hentries]
  rfl

/-- The reads of a running refresh, after a step, were there before or saw the
database of this moment. -/
theorem refresh_reads_of_effect {config : Config} {a : BackendAct} (h : Effect config s a b)
    {r : Refresh} (hr : b.refresh = some r) {q : Query} {read : Read} (hq : r.reads q = some read) :
    read.db = s.db ∨ ∃ r', s.refresh = some r' ∧ r'.reads q = some read := by
  cases h with
  | commit _ created h => exact Or.inr ⟨r, h.refresh ▸ hr, hq⟩
  | apply => exact Or.inr ⟨r, hr, hq⟩
  | broadcast => exact Or.inr ⟨r, hr, hq⟩
  | quiet _ h => exact Or.inr ⟨r, h.refresh ▸ hr, hq⟩
  | refreshBegin =>
    cases hr
    cases hq
  | refreshRead h =>
    cases hr
    rename_i query now r' hnone
    dsimp only at hq
    by_cases heq : q = query
    · subst heq
      rw [Function.update_self] at hq
      cases hq
      exact Or.inl rfl
    · rw [Function.update_of_ne heq] at hq
      exact Or.inr ⟨r', h, hq⟩
  | refreshReadHub h =>
    cases hr
    exact Or.inr ⟨_, h, hq⟩
  | refreshReplace => cases hr
  | refreshFail => cases hr

/-- The allow-list never changes. -/
theorem filter_of_effect {config : Config} {a : BackendAct} (h : Effect config s a b) :
    b.cache.filter = s.cache.filter := by
  cases h with
  | commit _ created h => exact h.cache.filter
  | apply =>
    cases hready : s.cache.ready with
    | false => rw [PublicStateCache.apply_not_ready hready]
    | true => exact (PublicStateCache.apply_applied hready _ _).filter
  | broadcast => rfl
  | quiet _ h => exact h.cache.filter
  | refreshBegin => rfl
  | refreshRead => rfl
  | refreshReadHub => rfl
  | refreshReplace => rfl
  | refreshFail => rfl

theorem TableInv.step {config : Config} {s : Ledgered} {b : Backend} {a : BackendAct}
    (hs : TableInv s) (hok : StepOk config s a) (h : backendStep config s.backend a = some b) :
    TableInv { s with backend := b, ledger := s.ledger ++ newEntries s.backend b } ∧
      TableStep s.backend b := by
  have ht := tableStep_of_step hs.consistent hs.knows hs.disabled hok h
  have heffect := effect_of_step h
  refine ⟨?_, ht⟩
  exact
    { consistent := ht.consistent
      knows := ht.knows
      disabled := (congrArg PublicIATAFilter.enabled (filter_of_effect heffect)).trans hs.disabled
      ledger := by rw [List.map_append, hs.ledger]; exact ht.edges.symm
      rows := fun r n hn => by
        rw [List.filter_append, List.map_append, List.sum_append, ← hs.rows r n hn]
        exact ht.rows r n
      snapshots := fun r hr q read hq => by
        rcases refresh_reads_of_effect heffect hr hq with heq | ⟨r', hr', hq'⟩
        · rw [heq]
          exact ⟨hs.consistent, ht.extends_⟩
        · obtain ⟨hconsistent, hextends⟩ := hs.snapshots r' hr' q read hq'
          exact ⟨hconsistent, hextends.trans ht.extends_⟩ }

/-! ## The served states of a run -/

/-- A state that may be served. -/
structure Served (s : Ledgered) (state : PublicLiveState) : Prop where
  start_le : s.start ≤ state.stats.latestSeq
  le_sequence : state.stats.latestSeq ≤ s.backend.sequence
  counts : Counts s.ledger state

/-- A state that may be served adds up. -/
theorem Served.countsAddUp {s : Ledgered} {state : PublicLiveState} (h : Served s state)
    (hs : TableInv s) : CountsAddUp s.backend.db state := by
  intro r
  rw [h.counts r, hs.consistent.tally_projectAll r]
  have hrows := hs.rows r state.stats.latestSeq h.start_le
  have hsplit := sum_filter_le_add_lt s.ledger Prod.snd (entryCount r) state.stats.latestSeq
  have hedges : (s.ledger.map (entryCount r)).sum = (s.backend.db.edges.map (edgeCount r)).sum := by
    rw [← hs.ledger, List.map_map]
    rfl
  rw [← hedges, ← hsplit]
  exact congrArg _ hrows

/-- The cache and a running refresh are in step with the ledger. -/
structure ServedInv (s : Ledgered) : Prop where
  start_le_hub : s.start ≤ s.backend.hubSeq
  start_le_refresh : ∀ r latestSeq, s.backend.refresh = some r → r.latestSeq = some latestSeq →
    s.start ≤ latestSeq
  state : s.backend.cache.ready = true → Served s s.backend.cache.state
  serialized : s.backend.cache.ready = true → ∀ state ∈ s.backend.cache.serialized, Served s state

/-- A served state stays one when only entries beyond the counter are added. -/
theorem Served.frame {s : Ledgered} {state state' : PublicLiveState} (h : Served s state)
    (ht : TableStep s.backend b) (hle : s.backend.sequence ≤ b.sequence)
    (hroutes : state'.routes = state.routes)
    (hseq : state'.stats.latestSeq = state.stats.latestSeq) :
    Served { s with backend := b, ledger := s.ledger ++ newEntries s.backend b } state' where
  start_le := hseq ▸ h.start_le
  le_sequence := by
    have := h.le_sequence
    show state'.stats.latestSeq ≤ b.sequence
    omega
  counts := by
    have hcounts : Counts (s.ledger ++ newEntries s.backend b) state :=
      h.counts.append fun entry hentry => (ht.fresh entry hentry).imp_left fun hlt => by
        have := h.le_sequence
        omega
    intro r
    rw [hroutes, hseq]
    exact hcounts r

/-- Steps that leave the served lists and the refresh's cursor alone. -/
theorem ServedInv.frame {s : Ledgered} (hs : ServedInv s) (ht : TableStep s.backend b)
    (hle : s.backend.sequence ≤ b.sequence) (hcache : Quiet s.backend.cache b.cache)
    (hhub : s.backend.hubSeq ≤ b.hubSeq)
    (hrefresh : ∀ r latestSeq, b.refresh = some r → r.latestSeq = some latestSeq →
      s.start ≤ latestSeq) :
    ServedInv { s with backend := b, ledger := s.ledger ++ newEntries s.backend b } where
  start_le_hub := hs.start_le_hub.trans hhub
  start_le_refresh := hrefresh
  state := fun hready =>
    (hs.state (hcache.ready ▸ hready)).frame ht hle hcache.routes hcache.latestSeq
  serialized := fun hready state hstate =>
    (hs.serialized (hcache.ready ▸ hready) state (hcache.serialized ▸ hstate)).frame ht hle rfl rfl

/-- A live update of a ready cache. -/
theorem ServedInv.apply {config : Config} {s : Ledgered} (hs : ServedInv s)
    (hw : WorkerInv s.backend) {event : PublicEvent} {rest : List (PublicEvent × Op)} {now : Int}
    (h : s.backend.pending = (event, .apply) :: rest) (hok : StepOk config s (.publish now))
    (hb : b = { s.backend with
      pending := rest
      cache := s.backend.cache.apply now (publicEventDataWithSeq event.data event.seq) })
    (ht : TableStep s.backend b) :
    ServedInv { s with backend := b, ledger := s.ledger ++ newEntries s.backend b } := by
  have hsequence : s.backend.sequence ≤ b.sequence := by rw [hb]
  cases hready : s.backend.cache.ready with
  | false =>
    have hcache : b.cache = s.backend.cache := by
      rw [hb]
      exact PublicStateCache.apply_not_ready hready now _
    refine hs.frame ht hsequence (hcache ▸ Quiet.refl _) (by rw [hb]) fun r n hr hn => ?_
    rw [hb] at hr
    exact hs.start_le_refresh r n hr hn
  | true =>
    have happ : Applied s.backend.cache b.cache
        (publicEventDataWithSeq event.data event.seq) := by
      rw [hb]
      exact PublicStateCache.apply_applied hready now _
    have hlatest := happ.latestSeq
    rw [seq_publicEventDataWithSeq] at hlatest
    have hevent : event.seq ≤ s.backend.sequence :=
      row_le_sequence (hw.mem (event, .apply) (h ▸ List.mem_cons_self))
    have hold := hs.state hready
    have hstart := hold.start_le
    have hcursor := hold.le_sequence
    -- the condition: no entry between the old and the new cursor
    have hbetween : ∀ entry ∈ s.ledger, s.backend.cache.state.stats.latestSeq < entry.2 →
        b.cache.state.stats.latestSeq < entry.2 := fun entry hentry hlt => by
      have := hok hready (event, .apply) (by rw [h]; rfl) rfl entry hentry hlt
      dsimp only at this
      omega
    have hadvanced : Served { s with backend := { s.backend with cache := b.cache } }
        b.cache.state :=
      { start_le := by
          show s.start ≤ b.cache.state.stats.latestSeq
          omega
        le_sequence := by
          show b.cache.state.stats.latestSeq ≤ s.backend.sequence
          omega
        counts := hold.counts.advance happ.routes (by omega) hbetween }
    have hnew : Served { s with backend := b, ledger := s.ledger ++ newEntries s.backend b }
        b.cache.state :=
      ⟨hadvanced.start_le, hadvanced.le_sequence.trans hsequence,
        hadvanced.counts.append fun entry hentry => (ht.fresh entry hentry).imp_left fun hlt => by
          omega⟩
    exact
      { start_le_hub := by rw [hb]; exact hs.start_le_hub
        start_le_refresh := fun r n hr hn => by
          rw [hb] at hr
          exact hs.start_le_refresh r n hr hn
        state := fun _ => hnew
        serialized := fun _ state hstate => by
          rcases happ.serialized with hsame | hstored
          · exact (hs.serialized hready state (hsame ▸ hstate)).frame ht hsequence rfl rfl
          · rw [Option.mem_def, hstored] at hstate
            cases hstate
            exact hnew }

/-- What the refreshed state has counted: the ledger up to the hub sequence. -/
theorem counts_refreshedState {config : Config} {s : Ledgered} (hs : TableInv s) {r : Refresh}
    {reads : Query → Read} {latestSeq : Int} (h : s.backend.refresh = some r)
    (hr : r.completed = some reads) {env : RefreshEnv} {now : Int}
    (hok : ReplaceOk config s r reads latestSeq
      (refreshedState config s.backend reads r.serverTime latestSeq env now).1) (route : String) :
    routeCounting.tally route
        (refreshedState config s.backend reads r.serverTime latestSeq env now).1.routes =
      ((s.ledger.filter fun entry => entry.2 ≤ latestSeq).map (entryCount route)).sum := by
  have hread : ∀ q, (reads q).db.Consistent ∧ Extends (reads q).db s.backend.db := fun q => by
    unfold Refresh.completed at hr
    split at hr <;> cases hr
    cases q <;> exact hs.snapshots r h _ _ (by assumption)
  obtain ⟨hfits, -, hcounted, -⟩ := hok
  have hfilter : ∀ state, s.backend.cache.filter.filterState state = (state, []) := fun state => by
    rw [PublicIATAFilter.filterState, hs.disabled]
    rfl
  have hextends : Extends (readDatabase reads route) s.backend.db := by
    unfold readDatabase
    split
    · exact (hread .routes).2
    · exact (hread .edges).2
  have hledger : ∀ selected : List Int,
      ((s.backend.db.edges.filter fun edge => edge.id ∈ selected).map (edgeCount route)).sum =
        ((s.ledger.filter fun entry => entry.1.id ∈ selected).map (entryCount route)).sum :=
    fun selected => by
      rw [← hs.ledger, List.filter_map, List.map_map]
      rfl
  unfold refreshedState
  rw [hfilter]
  rw [tally_read (fun q => (hread q).1) hfits, ← hextends.filter fun id hid =>
    mem_readEdges_le (fun q => (hread q).1) hid, hledger]
  refine sum_filter_congr fun entry hentry hweigh => ?_
  obtain ⟨segment, hsegment, rfl⟩ := exists_segment_of_edgeCount hweigh
  exact hcounted entry hentry segment hsegment

/-- A replacement under the condition. -/
theorem ServedInv.replace {config : Config} {s : Ledgered} (hs : ServedInv s) (hts : TableInv s)
    {r : Refresh} {reads : Query → Read} {latestSeq : Int} (h : s.backend.refresh = some r)
    (hr : r.completed = some reads) (hl : r.latestSeq = some latestSeq) {env : RefreshEnv}
    {now : Int}
    (hok : ReplaceOk config s r reads latestSeq
      (refreshedState config s.backend reads r.serverTime latestSeq env now).1)
    (hb : b = { s.backend with
      cache := s.backend.cache.replace now
        (refreshedState config s.backend reads r.serverTime latestSeq env now).1
        (refreshedState config s.backend reads r.serverTime latestSeq env now).2
        (some r.generation)
      refresh := none })
    (hw : WorkerInv b) (ht : TableStep s.backend b) :
    ServedInv { s with backend := b, ledger := s.ledger ++ newEntries s.backend b } := by
  have hcounts := counts_refreshedState hts h hr hok
  obtain ⟨-, hroutes, -, hpreserved⟩ := hok
  generalize hfresh : (refreshedState config s.backend reads r.serverTime latestSeq env now).1 =
    fresh at hb hcounts hroutes
  have hfreshSeq : fresh.stats.latestSeq = latestSeq := by rw [← hfresh]; rfl
  have hstate : b.cache.state.routes = fresh.routes ∧ b.cache.state.stats.latestSeq =
      (s.backend.cache.replacement fresh (some r.generation)).stats.latestSeq := by
    rw [hb]
    refine ⟨?_, rfl⟩
    show List.take publicCacheMaxRoutes
      (s.backend.cache.replacement fresh (some r.generation)).routes = fresh.routes
    have hsame : (s.backend.cache.replacement fresh (some r.generation)).routes = fresh.routes := by
      unfold PublicStateCache.replacement
      dsimp only
      split <;> rfl
    rw [hsame, List.take_of_length_le hroutes]
  have hle : latestSeq ≤ b.cache.state.stats.latestSeq := by
    rw [hstate.2, ← hfreshSeq]
    exact PublicStateCache.latestSeq_le_replacement _ _
  -- the condition: no preserved item carries the cursor over an entry
  have hbetween : ∀ entry ∈ s.ledger, latestSeq < entry.2 →
      b.cache.state.stats.latestSeq < entry.2 := by
    intro entry hentry hlt
    rw [hstate.2]
    rcases PublicStateCache.latestSeq_replacement_cases (c := s.backend.cache) fresh
      (some r.generation) with hcase | ⟨g, ⟨hg, hready, -⟩, k, x, hx, hcase⟩
    · rw [hcase]
      omega
    · rw [hcase]
      cases hg
      exact hpreserved hready k (by cases k <;> simp) x hx entry hentry hlt
  have hserved : Served { s with backend := b, ledger := s.ledger ++ newEntries s.backend b }
      b.cache.state := by
    have hold : Counts s.ledger b.cache.state := by
      have hbase : Counts s.ledger fresh := fun route => by rw [hcounts route, hfreshSeq]
      exact hbase.advance hstate.1 (hfreshSeq.symm ▸ hle) (hfreshSeq.symm ▸ hbetween)
    have hcursor : b.cache.state.stats.latestSeq ≤ s.backend.sequence := by
      have hseq : b.sequence = s.backend.sequence := by rw [hb]
      exact hseq ▸ hw.cursor_le_sequence
    refine ⟨(hs.start_le_refresh r latestSeq h hl).trans hle, hw.cursor_le_sequence, ?_⟩
    exact hold.append fun entry hentry => (ht.fresh entry hentry).imp_left fun hlt => by omega
  exact
    { start_le_hub := by rw [hb]; exact hs.start_le_hub
      start_le_refresh := by simp [hb]
      state := fun _ => hserved
      serialized := fun _ state hstored => by
        have hsame : b.cache.serialized = some b.cache.state := by rw [hb]; rfl
        rw [Option.mem_def, hsame] at hstored
        cases hstored
        exact hserved }

/-- What every run under the condition keeps. -/
structure LedgerInv (s : Ledgered) : Prop where
  worker : WorkerInv s.backend
  tables : TableInv s
  served : ServedInv s

theorem LedgerInv.step {config : Config} {s : Ledgered} {a : BackendAct} (hs : LedgerInv s)
    (hok : StepOk config s a) (hstep : backendStep config s.backend a = some b) :
    LedgerInv { s with backend := b, ledger := s.ledger ++ newEntries s.backend b } := by
  obtain ⟨htables, ht⟩ := hs.tables.step hok hstep
  have heffect := effect_of_step hstep
  have hw := hs.worker.step heffect
  refine ⟨hw, htables, ?_⟩
  cases heffect with
  | commit _ created h =>
    refine hs.served.frame ht h.sequence h.cache h.hubSeq.ge fun r n hr hn => ?_
    exact hs.served.start_le_refresh r n (h.refresh ▸ hr) hn
  | apply h => exact hs.served.apply hs.worker h hok rfl ht
  | broadcast h =>
    refine hs.served.frame ht (le_refl _) (.refl _) ?_ hs.served.start_le_refresh
    show s.backend.hubSeq ≤ if _ then max _ _ else _
    split
    · exact le_max_left _ _
    · exact le_refl _
  | quiet _ h =>
    refine hs.served.frame ht ?_ h.cache h.hubSeq.ge fun r n hr hn => ?_
    · exact (congrArg PublicEventTable.sequence h.publicEvents).ge
    · exact hs.served.start_le_refresh r n (h.refresh ▸ hr) hn
  | refreshBegin h =>
    refine hs.served.frame ht (le_refl _) (.refl _) (le_refl _) fun r n hr hn => ?_
    cases hr
    cases hn
  | refreshRead h hq =>
    refine hs.served.frame ht (le_refl _) (.refl _) (le_refl _) fun r n hr hn => ?_
    cases hr
    exact hs.served.start_le_refresh _ n h hn
  | refreshReadHub h =>
    refine hs.served.frame ht (le_refl _) (.refl _) (le_refl _) fun r n hr hn => ?_
    cases hr
    cases hn
    exact hs.served.start_le_hub
  | refreshReplace h hr hl =>
    exact hs.served.replace hs.tables h hr hl (hok _ h _ hr _ hl) rfl hw ht
  | refreshFail => exact hs.served.frame ht (le_refl _) (.refl _) (le_refl _) (by simp)

/-- The run lemma. -/
theorem ledgerInv (config : Config) :
    (ledgered config).InductiveOn (StepOk config) LedgerInv where
  init s hs := by
    have hcache : s.backend.cache = newPublicStateCache s.backend.cache.filter := hs.1.1
    have hready : s.backend.cache.ready = false := by rw [hcache]; rfl
    exact
      { worker := workerInv_init hs.1
        tables := tableInv_init hs
        served :=
          { start_le_hub := hs.2.2.2.2.le
            start_le_refresh := by simp [hs.1.2.2.2.2]
            state := by simp [hready]
            serialized := by simp [hready] } }
  step s a s' hinv hok hstep := by
    obtain ⟨b, hb, rfl⟩ := Option.map_eq_some_iff.mp hstep
    exact hinv.step hok hb

/-! ## The main result -/

end Env

/-! ## Runs -/

section Runs

attribute [local instance] defaultEnv

def emptyLedgered : Ledgered := { backend := emptyBackend, ledger := [], start := 0 }

theorem emptyLedgered_init (config : Config) : (ledgered config).init emptyLedgered :=
  ⟨emptyBackend_init config, rfl, consistent_emptyDatabase, rfl, rfl⟩

/-- The message `m` with `sampleEdge` and what the worker does for its events. -/
def edgeMessage : List BackendAct :=
  [.commitEdge "m" sampleEdge "resolved" 1000 1000, .publish 0, .publish 0, .publish 0, .publish 0]

/-- The route of the segment of `sampleEdge`. -/
def sampleRoute : String := publicRouteID "A" "B"

/-- An edge that is projected before the warm-up refresh, and a packet after it. -/
def projectedFirst : List BackendAct :=
  edgeMessage ++ [.enqueueEdgeProjection, .project] ++ wholeRefresh ++
    [samplePacketCommit "n" 1, .publish 0, .publish 0]

/-- After the warm-up refresh an edge is committed and its events are published. -/
def pulseAfterWarmUp : List BackendAct := wholeRefresh ++ edgeMessage

end Runs

end CartoLive.Theorems.RouteCursor
