import CartoLive.App.WorkerInvariant
import Mathlib

/-!
# The cached state and its cursor

A client that loads the cached state resumes after its cursor, so every event up
to the cursor has to be in the state. An event gets there in two ways: it is
committed before the queries of a refresh read its tables, or it is applied to
the ready cache, and then the mutation journal carries it over the replacements
that raced it. The results here say that nothing else is needed, as long as no
replacement installs a cursor beyond an event that took neither way.
-/

namespace CartoLive.Theorems.SnapshotCoherence

open CartoLive.Lib CartoLive.Go CartoLive.Live CartoLive.Store CartoLive.App
open CartoLive.Store.Database (Query Read)
open CartoLive.Live.PublicStateCache (Quiet Applied)

/-! ## The backend with what the statements need -/

/-- The backend, the reads behind the cached state, the events that the size
limits of the lists have cut, and the event counter at the start of the running
refresh. -/
structure Traced where
  backend : Backend
  installed : Option (Query → Read)
  cut : List PublicEvent
  since : Int

def eventKind (event : PublicEvent) : Kind := event.data.kind

/-- The version that an event puts into the cache. -/
def eventVersion (event : PublicEvent) : Version :=
  (publicEventDataWithSeq event.data event.seq).version

@[simp] theorem seq_eventVersion (event : PublicEvent) : (eventVersion event).seq = event.seq := by
  simp [eventVersion]

/-- The queries that the item of an event comes from. -/
def queriesOf (event : PublicEvent) : List Query :=
  match event.data with
  | .node _ => [.nodes]
  | .activity item => if item.hasRoute then [.packets, .edges] else [.packets]
  | .pulse _ => [.edges]

/-- The event was committed before the queries of its item read the database;
its transaction stores, or comes after the one that stored, the rows of the item. -/
def CameIn (reads : Query → Read) (event : PublicEvent) : Prop :=
  ∀ query ∈ queriesOf event, event ∈ (reads query).db.publicEvents.rows

instance (reads : Query → Read) (event : PublicEvent) : Decidable (CameIn reads event) := by
  unfold CameIn
  infer_instance

/-- The events of one kind, applied by now, that versions of that kind stand for. -/
def coveredEvents (b : Backend) (k : Kind) (versions : List Version) : List PublicEvent :=
  b.rows.filter fun event =>
    eventKind event = k ∧ (event, .apply) ∉ b.pending ∧
      ∃ v ∈ versions, v.Covers (eventVersion event)

section Env

variable [LiveEnv]

/-- What a replacement leaves out of a list. -/
def dropped (config : Config) (s : Backend) (env : RefreshEnv) (now : Int) (k : Kind) :
    List Version :=
  ((s.refresh.bind fun r =>
      r.completed.bind fun reads =>
        r.latestSeq.map fun latestSeq =>
          ((s.cache.replacement (refreshedState config s reads r.serverTime latestSeq env now).1
            (some r.generation)).versions k).drop k.limit)).getD []

/-- The events that a step cuts. -/
def cutBy (config : Config) (s b : Backend) : BackendAct → List PublicEvent
  | .publish _ =>
    match s.pending with
    | (event, .apply) :: _ =>
      coveredEvents b (eventKind event)
        (s.cache.evicted (publicEventDataWithSeq event.data event.seq))
    | _ => []
  | .refreshReplace env now =>
    [Kind.node, .activity, .pulse].flatMap fun k =>
      coveredEvents b k (dropped config s env now k)
  | _ => []

/-- The trace after a step. -/
def traceStep (config : Config) (s : Traced) (b : Backend) (a : BackendAct) : Traced :=
  { backend := b
    installed :=
      match a with
      | .refreshReplace _ _ => s.backend.refresh.bind Refresh.completed
      | _ => s.installed
    cut := s.cut ++ cutBy config s.backend b a
    since :=
      match a with
      | .refreshBegin _ => s.backend.sequence
      | _ => s.since }

def tracedStep (config : Config) (s : Traced) (a : BackendAct) : Option Traced :=
  (backendStep config s.backend a).map fun b => traceStep config s b a

/-- The backend from start-up, with its trace. -/
def traced (config : Config) : TSys Traced BackendAct where
  init s := (backend config).init s.backend ∧ s.installed = none ∧ s.cut = []
  step := tracedStep config

/-! ## The property and its condition -/

/-- An event came in with the database read, or the cached list holds its item
or a newer version of it, or the size limit of the list has cut it. -/
def Reflected (s : Traced) (event : PublicEvent) : Prop :=
  (∃ reads ∈ s.installed, CameIn reads event) ∨
    (∃ v ∈ s.backend.cache.state.versions (eventKind event), v.Covers (eventVersion event)) ∨
      event ∈ s.cut

/-- The cached state reflects every event up to its cursor. -/
def Coherent (s : Traced) : Prop :=
  s.backend.cache.ready = true →
    ∀ event ∈ s.backend.rows, event.seq ≤ s.backend.cursor → Reflected s event

instance (s : Traced) (event : PublicEvent) : Decidable (Reflected s event) := by
  unfold Reflected
  infer_instance

instance (s : Traced) : Decidable (Coherent s) := by
  unfold Coherent
  infer_instance

/-- The condition on a replacement: an event that its item's queries have missed
is still to be applied, with the cursor of the hub below it; or it has been
applied to the ready cache, and then no item that wins over its journaled version
is older than the event. -/
def ReplaceOk (s : Backend) (r : Refresh) (reads : Query → Read) (latestSeq : Int)
    (fresh : PublicLiveState) : Prop :=
  ∀ event ∈ s.rows, ¬ CameIn reads event →
    (event, .apply) ∈ s.pending ∧ latestSeq < event.seq ∨
      (event, .apply) ∉ s.pending ∧ s.cache.ready = true ∧
        ∀ x ∈ s.cache.preserved r.generation (eventKind event), x.Covers (eventVersion event) →
          ∀ y ∈ fresh.versions (eventKind event) ++ s.cache.preserved r.generation (eventKind event),
            y.key = x.key → versionView.AtLeast y x → y.Covers (eventVersion event)

/-- The condition on an update during a refresh: the item that it pushes out of
its list shares its key with no other journaled item that stays. -/
def EvictOk (s : Backend) (r : Refresh) (data : PublicData) : Prop :=
  ∀ v ∈ s.cache.evicted data, ∀ w ∈ (s.cache.nextVersions data).take data.kind.limit,
    r.generation < s.cache.journal data.kind w.key → v.key = w.key → w.key = data.version.key

/-- The condition on a step. -/
def StepOk (config : Config) (s : Traced) : BackendAct → Prop
  | .publish _ =>
    ∀ p ∈ s.backend.pending.head?, p.2 = .apply → ∀ r ∈ s.backend.refresh,
      EvictOk s.backend r (publicEventDataWithSeq p.1.data p.1.seq)
  | .refreshReplace env now =>
    ∀ r ∈ s.backend.refresh, ∀ reads ∈ r.completed, ∀ latestSeq ∈ r.latestSeq,
      ReplaceOk s.backend r reads latestSeq
        (refreshedState config s.backend reads r.serverTime latestSeq env now).1
  | _ => True

instance (s : Backend) (r : Refresh) (reads : Query → Read) (latestSeq : Int)
    (fresh : PublicLiveState) : Decidable (ReplaceOk s r reads latestSeq fresh) := by
  unfold ReplaceOk View.AtLeast
  infer_instance

instance (s : Backend) (r : Refresh) (data : PublicData) : Decidable (EvictOk s r data) := by
  unfold EvictOk
  infer_instance

instance (config : Config) (s : Traced) : (a : BackendAct) → Decidable (StepOk config s a)
  | .publish _ =>
    inferInstanceAs (Decidable (∀ p ∈ s.backend.pending.head?, p.2 = .apply →
      ∀ r ∈ s.backend.refresh,
        EvictOk s.backend r (publicEventDataWithSeq p.1.data p.1.seq)))
  | .refreshReplace env now =>
    inferInstanceAs (Decidable (∀ r ∈ s.backend.refresh, ∀ reads ∈ r.completed,
      ∀ latestSeq ∈ r.latestSeq, ReplaceOk s.backend r reads latestSeq
        (refreshedState config s.backend reads r.serverTime latestSeq env now).1))
  | .commitEdge .. | .commitActivity .. | .commitNode .. | .enqueueEdgeProjection | .project
  | .projectFails | .backfill .. | .writeTables .. | .storePacketCount _ | .setPacketCount
  | .refreshBegin _ | .refreshRead .. | .refreshReadHub | .refreshFail => .isTrue trivial

/-! ## The invariant -/

/-- What ties the served state and a running refresh to the committed events. -/
structure CoherenceInv (s : Traced) : Prop where
  worker : WorkerInv s.backend
  /-- The state reflects every event, or the event is still to be applied and
  beyond the cursor. -/
  reflected : s.backend.cache.ready = true → ∀ event ∈ s.backend.rows,
    Reflected s event ∨ (event, .apply) ∈ s.backend.pending ∧ s.backend.cursor < event.seq
  /-- What is newer than the running refresh and has been applied is journaled. -/
  journaled : s.backend.cache.ready = true → ∀ r ∈ s.backend.refresh, ∀ event ∈ s.backend.rows,
    event.seq ≤ s.since ∨ (event, .apply) ∈ s.backend.pending ∨
      (∃ v ∈ s.backend.cache.preserved r.generation (eventKind event),
        v.Covers (eventVersion event)) ∨ event ∈ s.cut
  /-- What is older has come in with every query. -/
  read : ∀ r ∈ s.backend.refresh, ∀ query, ∀ read ∈ r.reads query, ∀ event ∈ s.backend.rows,
    event.seq ≤ s.since → event ∈ read.db.publicEvents.rows
  since_le : ∀ r ∈ s.backend.refresh, s.since ≤ s.backend.sequence

section Steps

omit [LiveEnv]

variable {s : Traced} {b : Backend}

theorem mem_coveredEvents {k : Kind} {versions : List Version} {event : PublicEvent}
    {v : Version} (hrow : event ∈ b.rows) (hkind : eventKind event = k)
    (hdone : (event, .apply) ∉ b.pending) (hv : v ∈ versions) (hcovers : v.Covers (eventVersion event)) :
    event ∈ coveredEvents b k versions :=
  List.mem_filter.mpr ⟨hrow, decide_eq_true ⟨hkind, hdone, v, hv, hcovers⟩⟩

/-- What is reflected stays so while the lists stay and the trace grows. -/
theorem Reflected.frame {event : PublicEvent} (h : Reflected s event)
    (hcache : Quiet s.backend.cache b.cache) (more : List PublicEvent) (since : Int) :
    Reflected { s with backend := b, cut := s.cut ++ more, since } event := by
  rcases h with hcame | ⟨v, hv, hcovers⟩ | hcut
  · exact Or.inl hcame
  · exact Or.inr (Or.inl ⟨v, by rw [hcache.versions]; exact hv, hcovers⟩)
  · exact Or.inr (Or.inr (List.mem_append_left _ hcut))

/-- A new transaction: its events are all still to be applied. -/
theorem CoherenceInv.commit (hs : CoherenceInv s) {created : List PublicEvent}
    (h : Committed s.backend b created) :
    CoherenceInv { s with backend := b, cut := s.cut ++ [] } := by
  have hcursor : b.cursor = s.backend.cursor := h.cache.latestSeq
  have hpending : ∀ event ∈ created, (event, Op.apply) ∈ b.pending := fun event hevent => by
    rw [h.pending]
    exact mem_flatMap_publishOps.mpr hevent
  have hidle : ∀ event, (event, Op.apply) ∉ s.backend.pending := fun event => by simp [h.idle]
  exact
    { worker := hs.worker.commit h
      reflected := fun hready event hevent => by
        rw [h.rows] at hevent
        rcases List.mem_append.mp hevent with hold | hnew
        · refine Or.inl ?_
          rcases hs.reflected (h.cache.ready ▸ hready) event hold with href | ⟨hin, -⟩
          · exact href.frame h.cache [] s.since
          · exact absurd hin (hidle event)
        · refine Or.inr ⟨hpending event hnew, ?_⟩
          have := h.fresh event hnew
          have := hs.worker.cursor_le_sequence
          show b.cursor < event.seq
          omega
      journaled := fun hready r hr event hevent => by
        rw [h.rows] at hevent
        rcases List.mem_append.mp hevent with hold | hnew
        · rcases hs.journaled (h.cache.ready ▸ hready) r (h.refresh ▸ hr) event hold with
            hle | hin | ⟨v, hv, hcovers⟩ | hcut
          · exact Or.inl hle
          · exact absurd hin (hidle event)
          · exact Or.inr (Or.inr (Or.inl ⟨v, by rw [h.cache.preserved]; exact hv, hcovers⟩))
          · exact Or.inr (Or.inr (Or.inr (List.mem_append_left _ hcut)))
        · exact Or.inr (Or.inl (hpending event hnew))
      read := fun r hr query read hread event hevent hle => by
        have hr' : r ∈ s.backend.refresh := h.refresh ▸ hr
        rw [h.rows] at hevent
        rcases List.mem_append.mp hevent with hold | hnew
        · exact hs.read r hr' query read hread event hold hle
        · have := h.fresh event hnew
          have := hs.since_le r hr'
          dsimp only at hle
          omega
      since_le := fun r hr => (hs.since_le r (h.refresh ▸ hr)).trans h.sequence }

/-- A step that leaves the stored events, the lists, the cursor, the journal and
the pending applications alone. -/
theorem CoherenceInv.frame (hs : CoherenceInv s) (hw : WorkerInv b)
    (hpublic : b.db.publicEvents = s.backend.db.publicEvents)
    (hcache : Quiet s.backend.cache b.cache)
    (hpending : ∀ event, (event, Op.apply) ∈ b.pending ↔ (event, Op.apply) ∈ s.backend.pending)
    (hrefresh : ∀ r ∈ b.refresh, ∃ r' ∈ s.backend.refresh, r'.generation = r.generation ∧
      ∀ query, ∀ read ∈ r.reads query, read ∈ r'.reads query ∨ read.db = s.backend.db) :
    CoherenceInv { s with backend := b, cut := s.cut ++ [] } := by
  have hcursor : b.cursor = s.backend.cursor := hcache.latestSeq
  have hrows : b.rows = s.backend.rows := by rw [Backend.rows, hpublic]
  exact
    { worker := hw
      reflected := fun hready event hevent => by
        refine (hs.reflected (hcache.ready ▸ hready) event (hrows ▸ hevent)).imp
          (fun href => href.frame hcache [] s.since) fun hwaits => ?_
        exact ⟨(hpending event).mpr hwaits.1, hcursor ▸ hwaits.2⟩
      journaled := fun hready r hr event hevent => by
        obtain ⟨r', hr', hgen, -⟩ := hrefresh r hr
        rcases hs.journaled (hcache.ready ▸ hready) r' hr' event (hrows ▸ hevent) with
          hle | hin | ⟨v, hv, hcovers⟩ | hcut
        · exact Or.inl hle
        · exact Or.inr (Or.inl ((hpending event).mpr hin))
        · refine Or.inr (Or.inr (Or.inl ⟨v, ?_, hcovers⟩))
          rw [hcache.preserved, ← hgen]
          exact hv
        · exact Or.inr (Or.inr (Or.inr (List.mem_append_left _ hcut)))
      read := fun r hr query read hread event hevent hle => by
        obtain ⟨r', hr', -, hreads⟩ := hrefresh r hr
        rw [hrows] at hevent
        rcases hreads query read hread with hold | hnow
        · exact hs.read r' hr' query read hold event hevent hle
        · rw [hnow]
          exact hevent
      since_le := fun r hr => by
        obtain ⟨r', hr', -⟩ := hrefresh r hr
        show s.since ≤ b.sequence
        rw [Backend.sequence, hpublic]
        exact hs.since_le r' hr' }

/-- A journaled version keeps its entry, or it is evicted, or the update replaces
it. -/
theorem preserved_keeps {c c' : PublicStateCache} {data : PublicData} (h : Applied c c' data)
    {r : Refresh} (hok : ∀ v ∈ c.evicted data, ∀ w ∈ (c.nextVersions data).take data.kind.limit,
      r.generation < c.journal data.kind w.key → v.key = w.key → w.key = data.version.key)
    {k : Kind} {v : Version} (hv : v ∈ c.preserved r.generation k) :
    v ∈ c'.preserved r.generation k ∨
      k = data.kind ∧ (v ∈ c.evicted data ∨ v.key = data.version.key) := by
  obtain ⟨hmem, hjournal⟩ := List.mem_filter.mp hv
  rcases h.keeps hmem with hstays | hgone
  · by_cases hk : k = data.kind
    · subst hk
      by_cases hkey : v.key = data.version.key
      · exact Or.inr ⟨rfl, Or.inr hkey⟩
      · refine Or.inl (List.mem_filter.mpr ⟨hstays, ?_⟩)
        rw [h.journal, PublicStateCache.Journal.record, if_neg hkey, if_neg]
        · exact hjournal
        · intro hin
          obtain ⟨w, hw, hwkey⟩ := List.mem_map.mp hin
          exact hkey (hok w hw v (h.versions ▸ hstays) (of_decide_eq_true hjournal) hwkey)
    · refine Or.inl (List.mem_filter.mpr ⟨hstays, ?_⟩)
      rw [h.journal_other k hk]
      exact hjournal
  · exact Or.inr hgone

/-- Applying an event to a ready cache: it is in front of its list, and what it
pushes out has been cut. -/
theorem CoherenceInv.apply (hs : CoherenceInv s) {event : PublicEvent} {now : Int}
    {rest : List (PublicEvent × Op)} (h : s.backend.pending = (event, .apply) :: rest)
    (hready : s.backend.cache.ready = true)
    (hok : ∀ r ∈ s.backend.refresh,
      EvictOk s.backend r (publicEventDataWithSeq event.data event.seq)) :
    CoherenceInv { s with
      backend := { s.backend with
        pending := rest
        cache := s.backend.cache.apply now (publicEventDataWithSeq event.data event.seq) }
      cut := s.cut ++ coveredEvents
        { s.backend with
          pending := rest
          cache := s.backend.cache.apply now (publicEventDataWithSeq event.data event.seq) }
        (eventKind event)
        (s.backend.cache.evicted (publicEventDataWithSeq event.data event.seq)) } := by
  have happ := PublicStateCache.apply_applied hready now
    (publicEventDataWithSeq event.data event.seq)
  have hkind : (publicEventDataWithSeq event.data event.seq).kind = eventKind event :=
    kind_publicEventDataWithSeq _ _
  have hhead : (event, Op.apply) ∈ s.backend.pending := h ▸ List.mem_cons_self
  have hcursor : (s.backend.cache.apply now
      (publicEventDataWithSeq event.data event.seq)).state.stats.latestSeq = event.seq := by
    rw [happ.latestSeq, seq_publicEventDataWithSeq]
    exact max_eq_right (hs.worker.cursor_le event hhead)
  obtain ⟨hrest, -, hbelow⟩ := hs.worker.rest h
  -- what was applied before stays covered, or is cut by this step
  have hcovered : ∀ e ∈ s.backend.rows, (e, Op.apply) ∉ s.backend.pending → ∀ v : Version,
      v.Covers (eventVersion e) →
      (eventKind e = (publicEventDataWithSeq event.data event.seq).kind ∧
        (v ∈ s.backend.cache.evicted (publicEventDataWithSeq event.data event.seq) ∨
          v.key = (publicEventDataWithSeq event.data event.seq).version.key)) →
      eventKind e = (publicEventDataWithSeq event.data event.seq).kind ∧
        (eventVersion event).Covers (eventVersion e) ∨
      e ∈ coveredEvents
        { s.backend with
          pending := rest
          cache := s.backend.cache.apply now (publicEventDataWithSeq event.data event.seq) }
        (eventKind event)
        (s.backend.cache.evicted (publicEventDataWithSeq event.data event.seq)) := by
    rintro e he hdone v hcovers ⟨hk, hevicted | hkey⟩
    · refine Or.inr (mem_coveredEvents he (hk.trans hkind) (fun hin => hdone ?_) hevicted hcovers)
      exact (hrest _ hin).1
    · refine Or.inl ⟨hk, hkey.symm.trans hcovers.1, Or.inr ?_⟩
      rw [seq_eventVersion, seq_eventVersion]
      exact (hs.worker.done_below .apply e he hdone event hhead).le
  refine
    { worker := hs.worker.apply _ h
      reflected := fun _ e he => ?_
      journaled := fun _ r hr e he => ?_
      read := hs.read
      since_le := hs.since_le }
  · by_cases hlater : (e, Op.apply) ∈ rest
    · refine Or.inr ⟨hlater, ?_⟩
      show (s.backend.cache.apply _ _).state.stats.latestSeq < e.seq
      rw [hcursor]
      exact (hrest _ hlater).2.2 rfl
    · left
      by_cases hcase : (e, Op.apply) = (event, Op.apply)
      · obtain ⟨rfl, -⟩ := Prod.mk.inj hcase
        refine Or.inr (Or.inl ⟨_, hkind ▸ List.mem_of_mem_filter (happ.mem_preserved (le_refl _)),
          Version.Covers.refl _⟩)
      · have hdone : (e, Op.apply) ∉ s.backend.pending := by
          rw [h]
          intro hin
          exact (List.mem_cons.mp hin).elim hcase hlater
        rcases hs.reflected hready e he with (hcame | ⟨v, hv, hcovers⟩ | hcut) | ⟨hin, -⟩
        · exact Or.inl hcame
        · rcases happ.keeps hv with hstays | hgone
          · exact Or.inr (Or.inl ⟨v, hstays, hcovers⟩)
          · rcases hcovered e he hdone v hcovers hgone with ⟨hk, hcov⟩ | hcut
            · refine Or.inr (Or.inl ⟨_, ?_, hcov⟩)
              exact hk ▸ List.mem_of_mem_filter (happ.mem_preserved (le_refl _))
            · exact Or.inr (Or.inr (List.mem_append_right _ hcut))
        · exact Or.inr (Or.inr (List.mem_append_left _ hcut))
        · exact absurd hin hdone
  · have hgen := hs.worker.refresh_generation r hr
    by_cases hlater : (e, Op.apply) ∈ rest
    · exact Or.inr (Or.inl hlater)
    · by_cases hcase : (e, Op.apply) = (event, Op.apply)
      · obtain ⟨rfl, -⟩ := Prod.mk.inj hcase
        exact Or.inr (Or.inr (Or.inl ⟨_, hkind ▸ happ.mem_preserved hgen, Version.Covers.refl _⟩))
      · have hdone : (e, Op.apply) ∉ s.backend.pending := by
          rw [h]
          intro hin
          exact (List.mem_cons.mp hin).elim hcase hlater
        rcases hs.journaled hready r hr e he with hle | hin | ⟨v, hv, hcovers⟩ | hcut
        · exact Or.inl hle
        · exact absurd hin hdone
        · rcases preserved_keeps happ (hok r hr) hv with hstays | hgone
          · exact Or.inr (Or.inr (Or.inl ⟨v, hstays, hcovers⟩))
          · rcases hcovered e he hdone v hcovers hgone with ⟨hk, hcov⟩ | hcut
            · exact Or.inr (Or.inr (Or.inl ⟨_, hk ▸ happ.mem_preserved hgen, hcov⟩))
            · exact Or.inr (Or.inr (Or.inr (List.mem_append_right _ hcut)))
        · exact Or.inr (Or.inr (Or.inr (List.mem_append_left _ hcut)))

/-- A cache that is still warming ignores an event. -/
theorem CoherenceInv.applyWarming (hs : CoherenceInv s) {event : PublicEvent}
    {rest : List (PublicEvent × Op)} (_ : s.backend.pending = (event, .apply) :: rest)
    (hready : s.backend.cache.ready = false) (hw : WorkerInv { s.backend with pending := rest })
    (more : List PublicEvent) :
    CoherenceInv { s with
      backend := { s.backend with pending := rest }, cut := s.cut ++ more } :=
  { worker := hw
    reflected := fun hr => by simp [hready] at hr
    journaled := fun hr => by simp [hready] at hr
    read := hs.read
    since_le := hs.since_le }

/-- What every query has seen has come in. -/
theorem cameIn_of_completed {r : Refresh} {reads : Query → Read} (h : r.completed = some reads)
    {event : PublicEvent}
    (hread : ∀ query, ∀ read ∈ r.reads query, event ∈ read.db.publicEvents.rows) :
    CameIn reads event := by
  unfold Refresh.completed at h
  split at h <;> cases h
  rename_i hn ho hr hp he
  intro query _
  cases query
  exacts [hread _ _ hn, hread _ _ ho, hread _ _ hr, hread _ _ hp, hread _ _ he]

end Steps

/-- A replacement that meets the guard. -/
theorem CoherenceInv.replace {config : Config} {s : Traced} (hs : CoherenceInv s)
    {env : RefreshEnv} {now : Int} {r : Refresh} {reads : Query → Read} {latestSeq : Int}
    (h : s.backend.refresh = some r) (hr : r.completed = some reads)
    (hl : r.latestSeq = some latestSeq)
    (hok : ReplaceOk s.backend r reads latestSeq
      (refreshedState config s.backend reads r.serverTime latestSeq env now).1)
    {more : List PublicEvent}
    (hmore : ∀ k, ∀ e ∈ coveredEvents s.backend k
      (((s.backend.cache.replacement
        (refreshedState config s.backend reads r.serverTime latestSeq env now).1
        (some r.generation)).versions k).drop k.limit), e ∈ more) :
    CoherenceInv { s with
      backend := { s.backend with
        cache := s.backend.cache.replace now
          (refreshedState config s.backend reads r.serverTime latestSeq env now).1
          (refreshedState config s.backend reads r.serverTime latestSeq env now).2
          (some r.generation)
        refresh := none }
      installed := some reads
      cut := s.cut ++ more } := by
  refine
    { worker := hs.worker.replace h hl
      reflected := fun _ e he => ?_
      journaled := by simp
      read := by simp
      since_le := by simp }
  by_cases hcame : CameIn reads e
  · exact Or.inl (Or.inl ⟨reads, rfl, hcame⟩)
  rcases hok e he hcame with ⟨hin, hlt⟩ | ⟨hdone, hready, hwins⟩
  · refine Or.inr ⟨hin, ?_⟩
    rcases cursor_replace_cases s.backend.cache now
      (refreshedState config s.backend reads r.serverTime latestSeq env now).1
      (refreshedState config s.backend reads r.serverTime latestSeq env now).2
      (some r.generation) with hcase | ⟨k, x, hx, hcase⟩
    · exact (le_of_eq hcase).trans_lt hlt
    · exact (le_of_eq hcase).trans_lt (hs.worker.version_lt k x hx e hin)
  · -- the event is newer than the refresh, so its version is in the journal
    left
    rcases hs.journaled hready r h e he with hle | hin | ⟨x, hx, hcovers⟩ | hcut
    · exact absurd (cameIn_of_completed hr fun query read hread =>
        hs.read r h query read hread e he hle) hcame
    · exact absurd hin hdone
    · have hnewer := of_decide_eq_true (List.mem_filter.mp hx).2
      have hjournal := hs.worker.journal_le (eventKind e) x.key
      have hp : s.backend.cache.Preserving (some r.generation) r.generation :=
        ⟨rfl, hready, by omega⟩
      obtain ⟨y, hy, hkey, hlate⟩ := PublicStateCache.exists_atLeast_replacement hp
        (refreshedState config s.backend reads r.serverTime latestSeq env now).1 hx
      have hyin : y ∈ (refreshedState config s.backend reads r.serverTime latestSeq env
          now).1.versions (eventKind e) ++
            s.backend.cache.preserved r.generation (eventKind e) := by
        rcases PublicStateCache.mem_versions_replacement hy with hfresh | ⟨g, ⟨hg, -⟩, hold⟩
        · exact List.mem_append_left _ hfresh
        · cases hg
          exact List.mem_append_right _ hold
      have hycovers := hwins x hx hcovers y hyin hkey hlate
      rw [← List.take_append_drop (eventKind e).limit ((s.backend.cache.replacement _ _).versions _)]
        at hy
      rcases List.mem_append.mp hy with hstays | hgoes
      · refine Or.inr (Or.inl ⟨y, ?_, hycovers⟩)
        rw [PublicStateCache.versions_replace]
        exact hstays
      · refine Or.inr (Or.inr (List.mem_append_right _ (hmore (eventKind e) e ?_)))
        exact mem_coveredEvents he rfl hdone hgoes hycovers
    · exact Or.inr (Or.inr (List.mem_append_left _ hcut))

/-- Commits and acts that have nothing to do with events leave no trace. -/
theorem traceStep_plain (config : Config) (s : Traced) (b : Backend) {a : BackendAct}
    (ha : a.isCommit = true ∨ a.isQuiet = true) :
    traceStep config s b a = { s with backend := b, cut := s.cut ++ [] } := by
  cases a <;> simp [BackendAct.isCommit, BackendAct.isQuiet] at ha <;> rfl

/-- The step lemma. -/
theorem CoherenceInv.step {config : Config} {s : Traced} {b : Backend} {a : BackendAct}
    (hs : CoherenceInv s) (hok : StepOk config s a) (h : Effect config s.backend a b) :
    CoherenceInv (traceStep config s b a) := by
  have hw := hs.worker.step h
  cases h with
  | commit ha created h =>
    rw [traceStep_plain config s b (Or.inl ha)]
    exact hs.commit h
  | quiet ha h =>
    rw [traceStep_plain config s b (Or.inr ha)]
    exact hs.frame hw h.publicEvents h.cache (fun event => by rw [h.pending]) fun r hr =>
      ⟨r, h.refresh ▸ hr, rfl, fun _ _ hread => Or.inl hread⟩
  | @apply now event rest h =>
    have htrace : traceStep config s _ (.publish now) = { s with
        backend := { s.backend with
          pending := rest
          cache := s.backend.cache.apply now (publicEventDataWithSeq event.data event.seq) }
        cut := s.cut ++ cutBy config s.backend { s.backend with
          pending := rest
          cache := s.backend.cache.apply now (publicEventDataWithSeq event.data event.seq) }
          (.publish now) } := rfl
    rw [htrace, cutBy, h]
    cases hready : s.backend.cache.ready with
    | false =>
      rw [PublicStateCache.apply_not_ready hready] at hw ⊢
      exact hs.applyWarming h hready hw _
    | true => exact hs.apply h hready (hok (event, .apply) (by simp [h]) rfl)
  | @broadcast now event rest h =>
    have hframe := hs.frame hw rfl (.refl _) (fun e => by simp [h]) fun r hr =>
      ⟨r, hr, rfl, fun _ _ hread => Or.inl hread⟩
    have hcut : ∀ b, cutBy config s.backend b (.publish now) = [] := fun b => by rw [cutBy, h]
    show CoherenceInv { s with backend := _, cut := s.cut ++ cutBy config s.backend _ _ }
    rwa [hcut]
  | refreshBegin h =>
    refine
      { worker := hw
        reflected := fun hready event hevent => ?_
        journaled := fun _ _ _ event hevent => Or.inl (row_le_sequence hevent)
        read := fun r hr query read hread => ?_
        since_le := fun _ _ => le_refl _ }
    · exact (hs.reflected hready event hevent).imp_left fun href => href.frame (.refl _) [] s.backend.sequence
    · cases hr
      cases hread
  | @refreshRead query now r h hq =>
    refine hs.frame hw rfl (.refl _) (fun _ => Iff.rfl) fun r hr => ⟨_, h, ?_⟩
    cases hr
    refine ⟨rfl, fun query' read hread => ?_⟩
    dsimp only at hread
    by_cases hquery : query' = query
    · rw [hquery, Function.update_self] at hread
      cases hread
      exact Or.inr rfl
    · rw [Function.update_of_ne hquery] at hread
      exact Or.inl hread
  | refreshReadHub h =>
    refine hs.frame hw rfl (.refl _) (fun _ => Iff.rfl) fun r hr => ⟨_, h, ?_⟩
    cases hr
    exact ⟨rfl, fun _ _ hread => Or.inl hread⟩
  | @refreshReplace env now r reads latestSeq h hr hl =>
    have hinstalled : s.backend.refresh.bind Refresh.completed = some reads := by rw [h]; exact hr
    rw [traceStep, hinstalled]
    refine hs.replace h hr hl (hok r h reads hr latestSeq hl) fun k e he => ?_
    -- the events cut from each of the three lists are among those of the step
    refine List.mem_flatMap.mpr ⟨k, by cases k <;> simp, ?_⟩
    simp only [dropped, h, hr, hl, Option.bind_some, Option.map_some, Option.getD_some]
    exact he
  | refreshFail =>
    exact hs.frame hw rfl (.refl _) (fun _ => Iff.rfl) (by simp)

/-- The run lemma. -/
theorem coherenceInv (config : Config) :
    (traced config).InductiveOn (StepOk config) CoherenceInv where
  init s hs := by
    obtain ⟨hinit, -, -⟩ := hs
    have hrefresh : s.backend.refresh = none := hinit.2.2.2.2
    exact
      { worker := workerInv_init hinit
        reflected := fun hready => by
          rw [hinit.1] at hready
          cases hready
        journaled := by simp [hrefresh]
        read := by simp [hrefresh]
        since_le := by simp [hrefresh] }
  step _ _ _ h hok hstep := by
    obtain ⟨b, hb, rfl⟩ := Option.map_eq_some_iff.mp hstep
    exact h.step hok (effect_of_step hb)

/-! ## The main result -/

end Env

/-! ## Runs -/

section Runs

attribute [local instance] defaultEnv

def emptyTraced : Traced := { backend := emptyBackend, installed := none, cut := [], since := 0 }

theorem emptyTraced_init (config : Config) : (traced config).init emptyTraced :=
  ⟨emptyBackend_init config, rfl, rfl⟩

/-- The cache is warmed between two messages, and a refresh races the next two:
one is committed before its queries and one is applied while they run. -/
def racingRefresh : List BackendAct :=
  [samplePacketCommit "m" 1, .publish 0, .publish 0] ++ wholeRefresh ++
    [.refreshBegin 0, samplePacketCommit "n" 2, .publish 0, .publish 0] ++ refreshQueries.tail ++
    [samplePacketCommit "o" 3, .publish 0, .refreshReadHub, .refreshReplace sampleEnv 0]

/-- The warm-up reads the database; a packet is committed, dropped by the cache
that is not ready yet, and broadcast; then the warm-up reads the hub. -/
def publishDuringWarmUp : List BackendAct :=
  refreshQueries ++ [samplePacketCommit "m" 1, .publish 0, .publish 0, .refreshReadHub,
    .refreshReplace sampleEnv 0]

end Runs

end CartoLive.Theorems.SnapshotCoherence
