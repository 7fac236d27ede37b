import CartoLive.App.Backend

/-!
# What every run of the backend keeps

`Effect` says once what a step can do to the event stream, the cache, the hub
and a running refresh. From it follow the ordering facts that hold in every
reachable state (`WorkerInv`): events are applied and broadcast in the order of
their sequence, and the cursors of the hub and the cache stay behind what the
worker still has to do.
-/

namespace CartoLive.App

open CartoLive.Lib CartoLive.Go CartoLive.Live CartoLive.Store
open CartoLive.Store.Database (Query Read)
open CartoLive.Live.PublicStateCache (Quiet)

/-! ## Steps -/

/-- The rows of the event stream. -/
abbrev Backend.rows (s : Backend) : List PublicEvent := s.db.publicEvents.rows

/-- The counter of the event stream. -/
abbrev Backend.sequence (s : Backend) : Int := s.db.publicEvents.sequence

/-- The cursor of the cached state. -/
abbrev Backend.cursor (s : Backend) : Int := s.cache.state.stats.latestSeq

/-- A transaction stores new events, all beyond the counter. -/
structure Committed (s s' : Backend) (created : List PublicEvent) : Prop where
  idle : s.pending = []
  rows : s'.rows = s.rows ++ created
  sequence : s.sequence ≤ s'.sequence
  fresh : ∀ e ∈ created, s.sequence < e.seq
  cache : Quiet s.cache s'.cache
  hubSeq : s'.hubSeq = s.hubSeq
  pending : s'.pending = created.flatMap publishOps
  refresh : s'.refresh = s.refresh

/-- Nothing that concerns the event stream happens. -/
structure Quieted (s s' : Backend) : Prop where
  publicEvents : s'.db.publicEvents = s.db.publicEvents
  cache : Quiet s.cache s'.cache
  hubSeq : s'.hubSeq = s.hubSeq
  pending : s'.pending = s.pending
  refresh : s'.refresh = s.refresh

/-- The acts that commit events. -/
def BackendAct.isCommit : BackendAct → Bool
  | .commitEdge _ _ _ _ _ | .commitActivity _ _ _ _ _ _ | .commitNode _ _ _ _ => true
  | _ => false

/-- The acts that have nothing to do with events. -/
def BackendAct.isQuiet : BackendAct → Bool
  | .enqueueEdgeProjection | .project | .projectFails | .backfill _ _ _ | .writeTables _ _ _
  | .storePacketCount _ | .setPacketCount => true
  | _ => false

/-- What a step can do. -/
inductive Effect [LiveEnv] (config : Config) (s : Backend) : BackendAct → Backend → Prop
  | commit {a s'} (ha : a.isCommit = true) (created : List PublicEvent)
      (h : Committed s s' created) : Effect config s a s'
  | apply {now event rest} (h : s.pending = (event, .apply) :: rest) :
      Effect config s (.publish now) { s with
        pending := rest
        cache := s.cache.apply now (publicEventDataWithSeq event.data event.seq) }
  | broadcast {now event rest} (h : s.pending = (event, .broadcast) :: rest) :
      Effect config s (.publish now) { s with
        pending := rest
        hubSeq := if 0 < event.seq then setLatestSeq s.hubSeq event.seq else s.hubSeq }
  | quiet {a s'} (ha : a.isQuiet = true) (h : Quieted s s') : Effect config s a s'
  | refreshBegin {serverTime} (h : s.refresh = none) :
      Effect config s (.refreshBegin serverTime) { s with
        refresh := some
          { generation := s.cache.mutationGeneration, serverTime, reads := fun _ => none
            latestSeq := none } }
  | refreshRead {query now r} (h : s.refresh = some r) (hq : r.reads query = none) :
      Effect config s (.refreshRead query now) { s with
        refresh := some
          { r with reads := Function.update r.reads query (some { db := s.db, now }) } }
  | refreshReadHub {r} (h : s.refresh = some r) :
      Effect config s .refreshReadHub
        { s with refresh := some { r with latestSeq := some s.hubSeq } }
  | refreshReplace {env now r reads latestSeq} (h : s.refresh = some r)
      (hr : r.completed = some reads) (hl : r.latestSeq = some latestSeq) :
      Effect config s (.refreshReplace env now) { s with
        cache := s.cache.replace now
          (refreshedState config s reads r.serverTime latestSeq env now).1
          (refreshedState config s reads r.serverTime latestSeq env now).2 (some r.generation)
        refresh := none }
  | refreshFail : Effect config s .refreshFail { s with refresh := none }

theorem recordExcluded_quiet (c : PublicStateCache) (iata : String) :
    Quiet c (recordExcluded c iata) := by
  unfold recordExcluded
  split
  · exact .refl c
  · exact PublicStateCache.recordExcludedIATA_quiet c iata

@[simp] theorem publicEvents_setResolution (db : Database) (id : Int) (status : String) :
    (db.setResolution id status).publicEvents = db.publicEvents := rfl

@[simp] theorem publicEvents_insertEdgeEventCoreTx (db : Database) (edge : EdgeEvent)
    (status : String) : (db.insertEdgeEventCoreTx edge status).1.publicEvents = db.publicEvents := by
  unfold Database.insertEdgeEventCoreTx
  split
  · rfl
  · dsimp only
    split <;> rfl

section Env

variable [LiveEnv] {config : Config} {s s' : Backend} {a : BackendAct}

@[simp] theorem publicEvents_upsert (db : Database) (edge : EdgeEvent) :
    (db.upsertPublicRouteSummariesTx edge).publicEvents = db.publicEvents := by
  unfold Database.upsertPublicRouteSummariesTx
  split
  · rfl
  · dsimp only
    split <;> rfl

theorem publicEvents_foldl_upsert (edges : List EdgeEvent) (db : Database) :
    (edges.foldl Database.upsertPublicRouteSummariesTx db).publicEvents = db.publicEvents := by
  induction edges generalizing db with
  | nil => rfl
  | cons edge edges ih => exact (ih _).trans (publicEvents_upsert db edge)

/-- The inversion of a step. -/
theorem effect_of_step (h : backendStep config s a = some s') : Effect config s a s' := by
  cases a with
  | commitEdge ingestID edge status receivedAt now =>
    simp only [backendStep] at h
    split at h <;> cases h
    rename_i hidle
    obtain ⟨hrows, hseq, hnew⟩ := PublicEventTable.insertPublicEventsOnce_spec
      s.db.publicEvents now _
    refine .commit rfl _
      { idle := hidle.1, rows := ?_, sequence := ?_, fresh := ?_
        cache := recordExcluded_quiet _ _, hubSeq := rfl, pending := rfl, refresh := rfl }
    all_goals simp only [Database.commitLiveEdge, publicEvents_insertEdgeEventCoreTx, Backend.rows,
      Backend.sequence]
    exacts [hrows, hseq, hnew]
  | commitActivity ingestID packet status location receivedAt now =>
    simp only [backendStep] at h
    split at h <;> cases h
    rename_i hidle
    obtain ⟨hrows, hseq, hnew⟩ := PublicEventTable.insertPublicEventsOnce_spec
      s.db.publicEvents now _
    exact .commit rfl _
      { idle := hidle.1, rows := hrows, sequence := hseq, fresh := hnew
        cache := recordExcluded_quiet _ _, hubSeq := rfl, pending := rfl, refresh := rfl }
  | commitNode node iata dedupeKey now =>
    simp only [backendStep] at h
    split at h <;> cases h
    rename_i hidle
    obtain ⟨hrows, hseq, hnew⟩ := PublicEventTable.insertPublicEventsOnce_spec
      s.db.publicEvents now _
    refine .commit rfl _
      { idle := hidle.1, rows := hrows, sequence := hseq, fresh := hnew
        cache := ?_, hubSeq := rfl, pending := rfl, refresh := rfl }
    dsimp only
    split
    · exact .refl _
    · exact recordExcluded_quiet _ _
  | publish now =>
    simp only [backendStep] at h
    split at h <;> cases h
    rename_i event op rest hpending
    cases op with
    | apply => exact .apply hpending
    | broadcast => exact .broadcast hpending
  | enqueueEdgeProjection =>
    simp only [backendStep] at h
    split at h
    · split at h
      · cases h
        exact .quiet rfl ⟨rfl, .refl _, rfl, rfl, rfl⟩
      · split at h <;> cases h
        exact .quiet rfl ⟨rfl, .refl _, rfl, rfl, rfl⟩
    · cases h
  | project =>
    simp only [backendStep] at h
    split at h <;> cases h
    exact .quiet rfl ⟨publicEvents_upsert _ _, .refl _, rfl, rfl, rfl⟩
  | projectFails =>
    cases h
    exact .quiet rfl ⟨rfl, .refl _, rfl, rfl, rfl⟩
  | backfill since until_ limit =>
    cases h
    exact .quiet rfl ⟨publicEvents_foldl_upsert _ _, .refl _, rfl, rfl, rfl⟩
  | writeTables nodes observers observations =>
    cases h
    exact .quiet rfl ⟨rfl, .refl _, rfl, rfl, rfl⟩
  | storePacketCount count =>
    cases h
    exact .quiet rfl ⟨rfl, .refl _, rfl, rfl, rfl⟩
  | setPacketCount =>
    cases h
    exact .quiet rfl ⟨rfl, PublicStateCache.setPacketCount_quiet _ _, rfl, rfl, rfl⟩
  | refreshBegin serverTime =>
    simp only [backendStep] at h
    split at h <;> cases h
    rename_i hnone
    exact .refreshBegin (Option.isNone_iff_eq_none.mp hnone)
  | refreshRead query now =>
    obtain ⟨r, hr, h⟩ := Option.bind_eq_some_iff.mp h
    split at h <;> cases h
    rename_i hq
    exact .refreshRead hr (Option.isNone_iff_eq_none.mp hq)
  | refreshReadHub =>
    obtain ⟨r, hr, h⟩ := Option.bind_eq_some_iff.mp h
    split at h <;> cases h
    exact .refreshReadHub hr
  | refreshReplace env now =>
    obtain ⟨r, hr, h⟩ := Option.bind_eq_some_iff.mp h
    obtain ⟨reads, hreads, h⟩ := Option.bind_eq_some_iff.mp h
    obtain ⟨latestSeq, hl, h⟩ := Option.bind_eq_some_iff.mp h
    cases h
    exact .refreshReplace hr hreads hl
  | refreshFail =>
    simp only [backendStep] at h
    split at h <;> cases h
    exact .refreshFail

end Env

/-! ## The invariant -/

/-- The order in which committed events reach the cache and the hub. -/
structure WorkerInv (s : Backend) : Prop where
  /-- What is pending is stored. -/
  mem : ∀ p ∈ s.pending, p.1 ∈ s.rows
  ordered : s.pending.Pairwise fun p q => p.1.seq ≤ q.1.seq ∧ (p.2 = q.2 → p.1.seq < q.1.seq)
  /-- What has been applied, or broadcast, is below what has not. -/
  done_below : ∀ op, ∀ e ∈ s.rows, (e, op) ∉ s.pending → ∀ e', (e', op) ∈ s.pending → e.seq < e'.seq
  hub_nonneg : 0 ≤ s.hubSeq
  hub_le_sequence : s.hubSeq ≤ s.sequence
  hub_lt : ∀ e, (e, .broadcast) ∈ s.pending → s.hubSeq < e.seq
  hub_le : ∀ e, (e, .apply) ∈ s.pending → s.hubSeq ≤ e.seq
  cursor_nonneg : 0 ≤ s.cursor
  cursor_le_sequence : s.cursor ≤ s.sequence
  cursor_lt : ∀ e, (e, .apply) ∈ s.pending → (e, .broadcast) ∈ s.pending → s.cursor < e.seq
  cursor_le : ∀ e, (e, .apply) ∈ s.pending → s.cursor ≤ e.seq
  /-- A cached item is up to the cursor, and below what is still to be applied. -/
  version_le : ∀ k, ∀ v ∈ s.cache.state.versions k, v.seq ≤ s.cursor
  version_lt : ∀ k, ∀ v ∈ s.cache.state.versions k, ∀ e, (e, .apply) ∈ s.pending → v.seq < e.seq
  journal_le : ∀ k key, s.cache.journal k key ≤ s.cache.mutationGeneration
  refresh_generation : ∀ r, s.refresh = some r → r.generation ≤ s.cache.mutationGeneration
  refresh_hub : ∀ r latestSeq, s.refresh = some r → r.latestSeq = some latestSeq →
    0 ≤ latestSeq ∧ latestSeq ≤ s.hubSeq

section Inv

variable {s s' : Backend}

theorem mem_publishOps {p : PublicEvent × Op} {event : PublicEvent} :
    p ∈ publishOps event ↔ p.1 = event := by
  obtain ⟨e, op⟩ := p
  unfold publishOps
  cases event.data.kind <;> cases op <;> simp

theorem mem_flatMap_publishOps {created : List PublicEvent} {p : PublicEvent × Op} :
    p ∈ created.flatMap publishOps ↔ p.1 ∈ created := by
  simp [List.mem_flatMap, mem_publishOps]

theorem pairwise_flatMap_publishOps {created : List PublicEvent}
    (h : created.Pairwise fun a b => a.seq < b.seq) :
    (created.flatMap publishOps).Pairwise
      fun p q => p.1.seq ≤ q.1.seq ∧ (p.2 = q.2 → p.1.seq < q.1.seq) := by
  refine List.pairwise_flatMap.mpr ⟨fun event _ => ?_, h.imp fun hab p hp q hq => ?_⟩
  · unfold publishOps
    cases event.data.kind <;> simp
  · rw [mem_publishOps.mp hp, mem_publishOps.mp hq]
    exact ⟨by omega, fun _ => hab⟩

theorem row_pos {s : Backend} {e : PublicEvent} (h : e ∈ s.rows) : 0 < e.seq :=
  (s.db.publicEvents.bounded e h).1

theorem row_le_sequence {s : Backend} {e : PublicEvent} (h : e ∈ s.rows) : e.seq ≤ s.sequence :=
  (s.db.publicEvents.bounded e h).2

theorem workerInv_init [LiveEnv] {config : Config} (hs : (backend config).init s) : WorkerInv s := by
  obtain ⟨hcache, hhub, ⟨hpending, -⟩, -, hrefresh⟩ := hs
  have hcursor : s.cursor = 0 := by rw [Backend.cursor, hcache]; rfl
  have hversions : ∀ k, s.cache.state.versions k = [] := by
    intro k
    rw [hcache]
    cases k <;> rfl
  have hnonneg : 0 ≤ s.sequence := s.db.publicEvents.nonneg
  exact
    { mem := by simp [hpending]
      ordered := by simp [hpending]
      done_below := by simp [hpending]
      hub_nonneg := hhub ▸ s.db.publicEvents.latestPublicSeq_nonneg
      hub_le_sequence := hhub ▸ s.db.publicEvents.latestPublicSeq_le_sequence
      hub_lt := by simp [hpending]
      hub_le := by simp [hpending]
      cursor_nonneg := by omega
      cursor_le_sequence := by omega
      cursor_lt := by simp [hpending]
      cursor_le := by simp [hpending]
      version_le := by simp [hversions]
      version_lt := by simp [hpending]
      journal_le := fun k key => by
        rw [hcache]
        cases k <;> exact le_refl 0
      refresh_generation := by simp [hrefresh]
      refresh_hub := by simp [hrefresh] }

theorem WorkerInv.commit (hs : WorkerInv s) {created : List PublicEvent}
    (h : Committed s s' created) : WorkerInv s' := by
  have hmem : ∀ e op, (e, op) ∈ s'.pending ↔ e ∈ created := fun e op => by
    rw [h.pending, mem_flatMap_publishOps]
  have hcursor : s'.cursor = s.cursor := h.cache.latestSeq
  have hle := hs.cursor_le_sequence
  have hhub := hs.hub_le_sequence
  have hseq := h.sequence
  have hcreated : created.Pairwise fun a b => a.seq < b.seq := by
    have hasc : s'.rows.Pairwise fun a b => a.seq < b.seq := s'.db.publicEvents.ascending
    rw [h.rows] at hasc
    exact (List.pairwise_append.mp hasc).2.1
  exact
    { mem := fun p hp => by
        rw [h.rows]
        exact List.mem_append_right _ ((hmem p.1 p.2).mp hp)
      ordered := h.pending ▸ pairwise_flatMap_publishOps hcreated
      done_below := fun op e he hdone e' he' => by
        rw [hmem] at hdone he'
        rw [h.rows] at he
        have hold := row_le_sequence ((List.mem_append.mp he).resolve_right hdone)
        have := h.fresh e' he'
        omega
      hub_nonneg := h.hubSeq ▸ hs.hub_nonneg
      hub_le_sequence := by rw [h.hubSeq]; omega
      hub_lt := fun e he => by
        have := h.fresh e ((hmem _ _).mp he)
        rw [h.hubSeq]
        omega
      hub_le := fun e he => by
        have := h.fresh e ((hmem _ _).mp he)
        rw [h.hubSeq]
        omega
      cursor_nonneg := hcursor ▸ hs.cursor_nonneg
      cursor_le_sequence := by omega
      cursor_lt := fun e he _ => by
        have := h.fresh e ((hmem _ _).mp he)
        omega
      cursor_le := fun e he => by
        have := h.fresh e ((hmem _ _).mp he)
        omega
      version_le := fun k v hv => by
        rw [h.cache.versions] at hv
        exact hcursor ▸ hs.version_le k v hv
      version_lt := fun k v hv e he => by
        rw [h.cache.versions] at hv
        have := hs.version_le k v hv
        have := h.fresh e ((hmem _ _).mp he)
        omega
      journal_le := fun k key => by
        rw [h.cache.journal]
        exact (hs.journal_le k key).trans h.cache.generation
      refresh_generation := fun r hr =>
        (hs.refresh_generation r (h.refresh ▸ hr)).trans h.cache.generation
      refresh_hub := fun r n hr hn => h.hubSeq ▸ hs.refresh_hub r n (h.refresh ▸ hr) hn }

theorem WorkerInv.quiet (hs : WorkerInv s) (h : Quieted s s') : WorkerInv s' := by
  have hcursor : s'.cursor = s.cursor := h.cache.latestSeq
  have hrows : s'.rows = s.rows := by rw [Backend.rows, h.publicEvents]
  have hsequence : s'.sequence = s.sequence := by rw [Backend.sequence, h.publicEvents]
  exact
    { mem := by rw [h.pending, hrows]; exact hs.mem
      ordered := by rw [h.pending]; exact hs.ordered
      done_below := by rw [h.pending, hrows]; exact hs.done_below
      hub_nonneg := by rw [h.hubSeq]; exact hs.hub_nonneg
      hub_le_sequence := by rw [h.hubSeq, hsequence]; exact hs.hub_le_sequence
      hub_lt := by rw [h.pending, h.hubSeq]; exact hs.hub_lt
      hub_le := by rw [h.pending, h.hubSeq]; exact hs.hub_le
      cursor_nonneg := by rw [hcursor]; exact hs.cursor_nonneg
      cursor_le_sequence := by rw [hcursor, hsequence]; exact hs.cursor_le_sequence
      cursor_lt := by rw [h.pending, hcursor]; exact hs.cursor_lt
      cursor_le := by rw [h.pending, hcursor]; exact hs.cursor_le
      version_le := fun k v hv => by
        rw [h.cache.versions] at hv
        exact hcursor ▸ hs.version_le k v hv
      version_lt := fun k v hv => by
        rw [h.cache.versions] at hv
        rw [h.pending]
        exact hs.version_lt k v hv
      journal_le := fun k key => by
        rw [h.cache.journal]
        exact (hs.journal_le k key).trans h.cache.generation
      refresh_generation := fun r hr =>
        (hs.refresh_generation r (h.refresh ▸ hr)).trans h.cache.generation
      refresh_hub := fun r n hr hn => h.hubSeq ▸ hs.refresh_hub r n (h.refresh ▸ hr) hn }

/-- Taking the head operation off keeps the order of what is left. -/
theorem WorkerInv.rest (hs : WorkerInv s) {event : PublicEvent} {op : Op}
    {rest : List (PublicEvent × Op)} (h : s.pending = (event, op) :: rest) :
    (∀ p ∈ rest, p ∈ s.pending ∧ event.seq ≤ p.1.seq ∧ (p.2 = op → event.seq < p.1.seq)) ∧
      rest.Pairwise (fun p q => p.1.seq ≤ q.1.seq ∧ (p.2 = q.2 → p.1.seq < q.1.seq)) ∧
      ∀ op', ∀ e ∈ s.rows, (e, op') ∉ rest → ∀ e', (e', op') ∈ rest → e.seq < e'.seq := by
  have hord := hs.ordered
  rw [h] at hord
  obtain ⟨hhead, hrest⟩ := List.pairwise_cons.mp hord
  have hmem : ∀ p ∈ rest, p ∈ s.pending := fun p hp => h ▸ List.mem_cons_of_mem _ hp
  refine ⟨fun p hp => ⟨hmem p hp, (hhead p hp).1, fun hop => (hhead p hp).2 hop.symm⟩, hrest,
    fun op' e he hdone e' he' => ?_⟩
  by_cases hcase : (e, op') = (event, op)
  · obtain ⟨rfl, rfl⟩ := Prod.mk.inj hcase
    exact (hhead _ he').2 rfl
  · refine hs.done_below op' e he (fun hin => ?_) e' (hmem _ he')
    rw [h] at hin
    exact (List.mem_cons.mp hin).elim hcase hdone

theorem WorkerInv.broadcast (hs : WorkerInv s) {event : PublicEvent}
    {rest : List (PublicEvent × Op)} (h : s.pending = (event, .broadcast) :: rest) :
    WorkerInv { s with
      pending := rest
      hubSeq := if 0 < event.seq then setLatestSeq s.hubSeq event.seq else s.hubSeq } := by
  obtain ⟨hrest, hordered, hdone⟩ := hs.rest h
  have hevent : event ∈ s.rows := hs.mem (event, .broadcast) (h ▸ List.mem_cons_self)
  have hpos := row_pos hevent
  have hle := row_le_sequence hevent
  have hhub := hs.hub_nonneg
  have hhubseq := hs.hub_le_sequence
  have hnew : (if 0 < event.seq then setLatestSeq s.hubSeq event.seq else s.hubSeq) =
      max s.hubSeq event.seq := if_pos hpos
  rw [hnew]
  exact
    { mem := fun p hp => hs.mem p (hrest p hp).1
      ordered := hordered
      done_below := hdone
      hub_nonneg := by show 0 ≤ max s.hubSeq event.seq; omega
      hub_le_sequence := by show max s.hubSeq event.seq ≤ s.sequence; omega
      hub_lt := fun e he => by
        show max s.hubSeq event.seq < e.seq
        have := hs.hub_lt e (hrest _ he).1
        have := (hrest _ he).2.2 rfl
        dsimp only at *
        omega
      hub_le := fun e he => by
        show max s.hubSeq event.seq ≤ e.seq
        have := hs.hub_le e (hrest _ he).1
        have := (hrest _ he).2.1
        dsimp only at *
        omega
      cursor_nonneg := hs.cursor_nonneg
      cursor_le_sequence := hs.cursor_le_sequence
      cursor_lt := fun e he hb => hs.cursor_lt e (hrest _ he).1 (hrest _ hb).1
      cursor_le := fun e he => hs.cursor_le e (hrest _ he).1
      version_le := hs.version_le
      version_lt := fun k v hv e he => hs.version_lt k v hv e (hrest _ he).1
      journal_le := hs.journal_le
      refresh_generation := hs.refresh_generation
      refresh_hub := fun r n hr hn => by
        have := hs.refresh_hub r n hr hn
        show 0 ≤ n ∧ n ≤ max s.hubSeq event.seq
        omega }

theorem WorkerInv.apply (hs : WorkerInv s) (now : Int) {event : PublicEvent}
    {rest : List (PublicEvent × Op)} (h : s.pending = (event, .apply) :: rest) :
    WorkerInv { s with
      pending := rest
      cache := s.cache.apply now (publicEventDataWithSeq event.data event.seq) } := by
  obtain ⟨hrest, hordered, hdone⟩ := hs.rest h
  have hevent : event ∈ s.rows := hs.mem (event, .apply) (h ▸ List.mem_cons_self)
  have hbase : WorkerInv { s with pending := rest } :=
    { hs with
      mem := fun p hp => hs.mem p (hrest p hp).1
      ordered := hordered
      done_below := hdone
      hub_lt := fun e he => hs.hub_lt e (hrest _ he).1
      hub_le := fun e he => hs.hub_le e (hrest _ he).1
      cursor_lt := fun e he hb => hs.cursor_lt e (hrest _ he).1 (hrest _ hb).1
      cursor_le := fun e he => hs.cursor_le e (hrest _ he).1
      version_lt := fun k v hv e he => hs.version_lt k v hv e (hrest _ he).1 }
  cases hready : s.cache.ready with
  | false =>
    rw [PublicStateCache.apply_not_ready hready]
    exact hbase
  | true =>
    have happ := PublicStateCache.apply_applied hready now
      (publicEventDataWithSeq event.data event.seq)
    have hcursor := happ.latestSeq
    rw [seq_publicEventDataWithSeq] at hcursor
    have hle := row_le_sequence hevent
    have hcle : s.cache.state.stats.latestSeq ≤ s.sequence := hs.cursor_le_sequence
    have hnonneg : 0 ≤ s.cache.state.stats.latestSeq := hs.cursor_nonneg
    exact
      { hbase with
        cursor_nonneg := by
          show 0 ≤ (s.cache.apply _ _).state.stats.latestSeq
          rw [hcursor]
          omega
        cursor_le_sequence := by
          show (s.cache.apply _ _).state.stats.latestSeq ≤ s.sequence
          rw [hcursor]
          exact max_le hcle hle
        cursor_lt := fun e he hb => by
          have hold := hbase.cursor_lt e he hb
          have hnext := (hrest _ he).2.2 rfl
          show (s.cache.apply _ _).state.stats.latestSeq < e.seq
          rw [hcursor]
          exact max_lt hold hnext
        cursor_le := fun e he => by
          have hold := hbase.cursor_le e he
          have hnext := (hrest _ he).2.1
          show (s.cache.apply _ _).state.stats.latestSeq ≤ e.seq
          rw [hcursor]
          exact max_le hold hnext
        version_le := fun k v hv => by
          show v.seq ≤ (s.cache.apply _ _).state.stats.latestSeq
          rw [hcursor]
          rcases happ.mem_versions hv with ⟨-, rfl⟩ | hv
          · simp
          · exact (hs.version_le k v hv).trans (le_max_left _ _)
        version_lt := fun k v hv e he => by
          rcases happ.mem_versions hv with ⟨-, rfl⟩ | hv
          · simpa using (hrest _ he).2.2 rfl
          · exact hbase.version_lt k v hv e he
        journal_le := happ.journal_le hs.journal_le
        refresh_generation := fun r hr => by
          have := hs.refresh_generation r hr
          show r.generation ≤ (s.cache.apply _ _).mutationGeneration
          rw [happ.generation]
          omega }

theorem WorkerInv.refreshing (hs : WorkerInv s) {refresh : Option Refresh}
    (hgeneration : ∀ r, refresh = some r → r.generation ≤ s.cache.mutationGeneration)
    (hhub : ∀ r latestSeq, refresh = some r → r.latestSeq = some latestSeq →
      0 ≤ latestSeq ∧ latestSeq ≤ s.hubSeq) : WorkerInv { s with refresh } :=
  { hs with refresh_generation := hgeneration, refresh_hub := hhub }

/-- The cursor that a replacement installs: what the hub said, or the sequence
of a preserved item. -/
theorem cursor_replace_cases (c : PublicStateCache) (now : Int) (fresh : PublicLiveState)
    (excluded : Counter) (expectedGeneration : Option Nat) :
    (c.replace now fresh excluded expectedGeneration).state.stats.latestSeq =
        fresh.stats.latestSeq ∨
      ∃ k, ∃ x ∈ c.state.versions k,
        (c.replace now fresh excluded expectedGeneration).state.stats.latestSeq = x.seq := by
  rw [PublicStateCache.latestSeq_replace]
  refine (PublicStateCache.latestSeq_replacement_cases fresh expectedGeneration).imp_right ?_
  rintro ⟨g, -, k, x, hx, heq⟩
  exact ⟨k, x, List.mem_of_mem_filter hx, heq⟩

theorem WorkerInv.replace [LiveEnv] {config : Config} (hs : WorkerInv s) {env : RefreshEnv}
    {now : Int} {r : Refresh} {reads : Query → Read} {latestSeq : Int} (h : s.refresh = some r)
    (hl : r.latestSeq = some latestSeq) :
    WorkerInv { s with
      cache := s.cache.replace now
        (refreshedState config s reads r.serverTime latestSeq env now).1
        (refreshedState config s reads r.serverTime latestSeq env now).2 (some r.generation)
      refresh := none } := by
  obtain ⟨hnonneg, hhub⟩ := hs.refresh_hub r latestSeq h hl
  have hhubseq := hs.hub_le_sequence
  -- what is installed is fresh, with sequence zero, or was in the cache
  have hversion : ∀ k v, v ∈ (s.cache.replace now
      (refreshedState config s reads r.serverTime latestSeq env now).1
      (refreshedState config s reads r.serverTime latestSeq env now).2
      (some r.generation)).state.versions k → v.seq = 0 ∨ v ∈ s.cache.state.versions k ∧
        v.seq ≤ (s.cache.replacement
          (refreshedState config s reads r.serverTime latestSeq env now).1
          (some r.generation)).stats.latestSeq := by
    intro k v hv
    rw [PublicStateCache.versions_replace] at hv
    refine (PublicStateCache.mem_versions_replacement (List.mem_of_mem_take hv)).imp
      seq_of_mem_buildPublicLiveState fun ⟨g, hp, hx⟩ => ?_
    exact ⟨List.mem_of_mem_filter hx, PublicStateCache.seq_le_replacement hp _ hx⟩
  have hfresh : latestSeq ≤ (s.cache.replacement
      (refreshedState config s reads r.serverTime latestSeq env now).1
      (some r.generation)).stats.latestSeq :=
    PublicStateCache.latestSeq_le_replacement _ _
  have hcases := cursor_replace_cases s.cache now
    (refreshedState config s reads r.serverTime latestSeq env now).1
    (refreshedState config s reads r.serverTime latestSeq env now).2 (some r.generation)
  have hbound : ∀ n : Int, latestSeq ≤ n → (∀ k, ∀ x ∈ s.cache.state.versions k, x.seq ≤ n) →
      (s.cache.replace now (refreshedState config s reads r.serverTime latestSeq env now).1
        (refreshedState config s reads r.serverTime latestSeq env now).2
        (some r.generation)).state.stats.latestSeq ≤ n := by
    intro n hn hall
    rcases hcases with hcase | ⟨k, x, hx, hcase⟩
    · exact hcase ▸ hn
    · exact hcase ▸ hall k x hx
  exact
    { hs with
      cursor_nonneg := Int.le_trans hnonneg hfresh
      cursor_le_sequence := hbound s.sequence (hhub.trans hhubseq) fun k x hx =>
        (hs.version_le k x hx).trans hs.cursor_le_sequence
      cursor_lt := fun e he hb => by
        have hlt : s.hubSeq < e.seq := hs.hub_lt e hb
        have := hbound (e.seq - 1) (by omega) fun k x hx => by
          have := hs.version_lt k x hx e he
          omega
        show (s.cache.replace _ _ _ _).state.stats.latestSeq < e.seq
        omega
      cursor_le := fun e he => hbound _ (hhub.trans (hs.hub_le e he)) fun k x hx =>
        (hs.version_lt k x hx e he).le
      version_le := fun k v hv => by
        show v.seq ≤ (s.cache.replacement _ _).stats.latestSeq
        rcases hversion k v hv with hzero | ⟨-, hle⟩
        · omega
        · exact hle
      version_lt := fun k v hv e he => by
        rcases hversion k v hv with hzero | ⟨hold, -⟩
        · have := row_pos (hs.mem _ he)
          dsimp only at this
          omega
        · exact hs.version_lt k v hold e he
      journal_le := fun k key => by simp
      refresh_generation := by simp
      refresh_hub := by simp }

/-- Every step keeps the invariant. -/
theorem WorkerInv.step [LiveEnv] {config : Config} {a : BackendAct} (hs : WorkerInv s)
    (h : Effect config s a s') : WorkerInv s' := by
  cases h with
  | commit _ created h => exact hs.commit h
  | apply h => exact hs.apply _ h
  | broadcast h => exact hs.broadcast h
  | quiet _ h => exact hs.quiet h
  | refreshBegin h =>
    refine hs.refreshing (fun r hr => ?_) fun r n hr hn => ?_
    · cases hr
      exact le_refl _
    · cases hr
      cases hn
  | refreshRead h hq =>
    refine hs.refreshing (fun r hr => ?_) fun r n hr hn => ?_
    · cases hr
      have := hs.refresh_generation _ h
      exact this
    · cases hr
      exact hs.refresh_hub _ n h hn
  | refreshReadHub h =>
    refine hs.refreshing (fun r hr => ?_) fun r n hr hn => ?_
    · cases hr
      have := hs.refresh_generation _ h
      exact this
    · cases hr
      cases hn
      exact ⟨hs.hub_nonneg, le_refl _⟩
  | refreshReplace h hr hl => exact hs.replace h hl
  | refreshFail => exact hs.refreshing (by simp) (by simp)

theorem workerInv_of_reachOn [LiveEnv] {config : Config} {ok : Backend → BackendAct → Prop}
    (hs : (backend config).ReachOn ok s) : WorkerInv s :=
  TSys.InductiveOn.invariant
    { init := fun _ => workerInv_init
      step := fun _ _ _ hinv _ hstep => hinv.step (effect_of_step hstep) } hs

end Inv

end CartoLive.App
