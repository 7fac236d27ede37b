import CartoLive.App.WorkerInvariant

/-!
# The cursor of the cached state over time

Requests read the cached state through `Snapshot` and `Serialized` while the
worker and the refreshes run. A replacement takes its cursor from the hub; an
event that is already in the cache and not yet at the hub is then lost from the
cursor, unless the replacement has something to preserve. The results here say
that this, and a serialization that is up to five seconds old, are the only ways
in which a later read can return an earlier cursor.
-/

namespace CartoLive.Theorems.CursorMonotone

open CartoLive.Lib CartoLive.Go CartoLive.Live CartoLive.Store CartoLive.App
open CartoLive.Live.PublicStateCache (Quiet Applied)

/-! ## Readers -/

inductive ReadMethod
  | snapshot
  | serialized
  deriving DecidableEq

/-- A read of the cached state: how, and the `Stats.LatestSeq` it returned. -/
structure CacheRead where
  method : ReadMethod
  latestSeq : Int
  deriving DecidableEq

/-- The backend with the reads that requests have made so far. -/
structure Observed where
  backend : Backend
  reads : List CacheRead

inductive ObservedAct
  | backend (a : BackendAct)
  | read (method : ReadMethod)

/-- `Snapshot` or `Serialized`. -/
def readCache (c : PublicStateCache) : ReadMethod → Option PublicLiveState
  | .snapshot => c.snapshot
  | .serialized => c.serializedState

def observedStep [LiveEnv] (config : Config) (s : Observed) : ObservedAct → Option Observed
  | .backend a => (backendStep config s.backend a).map fun backend => { s with backend }
  | .read method =>
    (readCache s.backend.cache method).map fun state =>
      { s with reads := s.reads ++ [{ method, latestSeq := state.stats.latestSeq }] }

/-- The backend and its readers, from start-up. -/
def observed [LiveEnv] (config : Config) : TSys Observed ObservedAct where
  init s := (backend config).init s.backend ∧ s.reads = []
  step := observedStep config

/-- A cached item has changed since a refresh captured its generation. -/
def Changed (c : PublicStateCache) (generation : Nat) : Prop :=
  ∃ k, c.preserved generation k ≠ []

instance (c : PublicStateCache) (generation : Nat) : Decidable (Changed c generation) :=
  decidable_of_iff (c.preserved generation .node ≠ [] ∨ c.preserved generation .activity ≠ [] ∨
      c.preserved generation .pulse ≠ []) <| by
    constructor
    · rintro (h | h | h)
      exacts [⟨_, h⟩, ⟨_, h⟩, ⟨_, h⟩]
    · rintro ⟨k, h⟩
      cases k
      exacts [Or.inl h, Or.inr (Or.inl h), Or.inr (Or.inr h)]

/-- The condition on a step. A refresh that replaces the state of a ready cache
has found the hub not behind the cached cursor, or has a change to preserve. A
`Serialized` read comes when the serialization has caught up with the cursor of
the `Snapshot` reads before it. -/
def StepOk (s : Observed) : ObservedAct → Prop
  | .backend (.refreshReplace _ _) =>
    s.backend.cache.ready = true →
      ∀ r ∈ s.backend.refresh, ∀ latestSeq ∈ r.latestSeq,
        s.backend.cursor ≤ latestSeq ∨ Changed s.backend.cache r.generation
  | .read .serialized =>
    ∀ state ∈ s.backend.cache.serialized, ∀ read ∈ s.reads,
      read.method = .snapshot → read.latestSeq ≤ state.stats.latestSeq
  | _ => True

instance (s : Observed) (a : ObservedAct) : Decidable (StepOk s a) := by
  unfold StepOk
  split <;> infer_instance

/-! ## The invariant -/

/-- What ties the reads so far to the cache, and the cache to a running refresh. -/
structure CursorInv (s : Observed) : Prop where
  worker : WorkerInv s.backend
  ordered : s.reads.Pairwise fun a b => a.latestSeq ≤ b.latestSeq
  ready : s.reads ≠ [] → s.backend.cache.ready = true
  read_le : ∀ read ∈ s.reads, read.latestSeq ≤ s.backend.cursor
  serialized_le : ∀ state ∈ s.backend.cache.serialized,
    state.stats.latestSeq ≤ s.backend.cursor
  read_le_serialized : ∀ state ∈ s.backend.cache.serialized, ∀ read ∈ s.reads,
    read.method = .serialized → read.latestSeq ≤ state.stats.latestSeq
  /-- When something has changed since a refresh began, the latest change is
  among what it will preserve. -/
  latest_changed : ∀ r ∈ s.backend.refresh, Changed s.backend.cache r.generation →
    ∃ k, ∃ x ∈ s.backend.cache.preserved r.generation k, x.seq = s.backend.cursor

variable {s s' : Observed}

theorem changed_of_quiet {c c' : PublicStateCache} (h : Quiet c c') {g : Nat}
    (hc : Changed c' g) : Changed c g := by
  obtain ⟨k, hk⟩ := hc
  exact ⟨k, h.preserved g k ▸ hk⟩

/-- A step that changes neither the cache nor what the refresh has captured. -/
theorem CursorInv.frame (hs : CursorInv s) {b : Backend} (hw : WorkerInv b)
    (hcache : Quiet s.backend.cache b.cache)
    (hrefresh : ∀ r ∈ b.refresh, ∃ r' ∈ s.backend.refresh, r'.generation = r.generation) :
    CursorInv { s with backend := b } := by
  have hcursor : b.cursor = s.backend.cursor := hcache.latestSeq
  exact
    { worker := hw
      ordered := hs.ordered
      ready := fun h => hcache.ready ▸ hs.ready h
      read_le := by rw [hcursor]; exact hs.read_le
      serialized_le := by rw [hcursor, hcache.serialized]; exact hs.serialized_le
      read_le_serialized := by rw [hcache.serialized]; exact hs.read_le_serialized
      latest_changed := fun r hr hchanged => by
        obtain ⟨r', hr', hgen⟩ := hrefresh r hr
        obtain ⟨k, x, hx, hseq⟩ := hs.latest_changed r' hr' (hgen ▸ changed_of_quiet hcache hchanged)
        exact ⟨k, x, by rwa [hcache.preserved, ← hgen], hseq.trans hcursor.symm⟩ }

/-- Applying an event moves the cursor to it. -/
theorem CursorInv.apply (hs : CursorInv s) {event : PublicEvent} {now : Int}
    {rest : List (PublicEvent × Op)} (h : s.backend.pending = (event, .apply) :: rest) :
    CursorInv { s with
      backend := { s.backend with
        pending := rest
        cache := s.backend.cache.apply now
          (publicEventDataWithSeq event.data event.seq) } } := by
  have hw := hs.worker.apply now h
  cases hready : s.backend.cache.ready with
  | false =>
    rw [PublicStateCache.apply_not_ready hready] at hw ⊢
    exact hs.frame hw (.refl _) fun r hr => ⟨r, hr, rfl⟩
  | true =>
    have happ := PublicStateCache.apply_applied hready now
      (publicEventDataWithSeq event.data event.seq)
    have hle : s.backend.cursor ≤ event.seq :=
      hs.worker.cursor_le event (h ▸ List.mem_cons_self)
    have hcursor := happ.latestSeq
    rw [seq_publicEventDataWithSeq, max_eq_right hle] at hcursor
    exact
      { worker := hw
        ordered := hs.ordered
        ready := fun _ => happ.ready
        read_le := fun read hread => by
          show read.latestSeq ≤ (s.backend.cache.apply _ _).state.stats.latestSeq
          rw [hcursor]
          exact (hs.read_le read hread).trans hle
        serialized_le := fun state hstate => by
          show _ ≤ (s.backend.cache.apply _ _).state.stats.latestSeq
          rcases happ.serialized with hold | hnew
          · rw [hcursor]
            exact (hs.serialized_le state (hold ▸ hstate)).trans hle
          · cases hnew ▸ hstate
            exact le_refl _
        read_le_serialized := fun state hstate read hread hmethod => by
          rcases happ.serialized with hold | hnew
          · exact hs.read_le_serialized state (hold ▸ hstate) read hread hmethod
          · cases hnew ▸ hstate
            rw [hcursor]
            exact (hs.read_le read hread).trans hle
        latest_changed := fun r hr _ =>
          ⟨_, _, happ.mem_preserved (hs.worker.refresh_generation r hr), by
            rw [seq_version, seq_publicEventDataWithSeq]
            exact hcursor.symm⟩ }

/-- A replacement that meets the guard does not move the cursor back. -/
theorem CursorInv.cursor_le_replacement (hs : CursorInv s) {r : Refresh} {latestSeq : Int}
    (hr : r ∈ s.backend.refresh) (hready : s.backend.cache.ready = true) (fresh : PublicLiveState)
    (hfresh : fresh.stats.latestSeq = latestSeq)
    (hok : s.backend.cursor ≤ latestSeq ∨ Changed s.backend.cache r.generation) :
    s.backend.cursor ≤
      (s.backend.cache.replacement fresh (some r.generation)).stats.latestSeq := by
  rcases hok with hle | hchanged
  · exact (hfresh ▸ hle).trans (PublicStateCache.latestSeq_le_replacement _ _)
  · obtain ⟨k, x, hx, hseq⟩ := hs.latest_changed r hr hchanged
    have hlt := of_decide_eq_true (List.mem_filter.mp hx).2
    have hgen := hs.worker.journal_le k x.key
    exact hseq ▸ PublicStateCache.seq_le_replacement
      ⟨rfl, hready, by omega⟩ fresh hx

theorem CursorInv.replace [LiveEnv] {config : Config} (hs : CursorInv s) {env : RefreshEnv}
    {now : Int} {r : Refresh} {reads : Database.Query → Database.Read} {latestSeq : Int}
    (h : s.backend.refresh = some r) (hl : r.latestSeq = some latestSeq)
    (hok : StepOk s (.backend (.refreshReplace env now))) :
    CursorInv { s with
      backend := { s.backend with
        cache := s.backend.cache.replace now
          (refreshedState config s.backend reads r.serverTime latestSeq env now).1
          (refreshedState config s.backend reads r.serverTime latestSeq env now).2
          (some r.generation)
        refresh := none } } := by
  have hforward : s.reads ≠ [] → s.backend.cursor ≤ (s.backend.cache.replacement
      (refreshedState config s.backend reads r.serverTime latestSeq env now).1
      (some r.generation)).stats.latestSeq := fun hne =>
    hs.cursor_le_replacement h (hs.ready hne) _ rfl (hok (hs.ready hne) r h latestSeq hl)
  have hread : ∀ read ∈ s.reads, read.latestSeq ≤ (s.backend.cache.replacement
      (refreshedState config s.backend reads r.serverTime latestSeq env now).1
      (some r.generation)).stats.latestSeq := fun read hmem =>
    (hs.read_le read hmem).trans (hforward (List.ne_nil_of_mem hmem))
  exact
    { worker := hs.worker.replace h hl
      ordered := hs.ordered
      ready := fun _ => rfl
      read_le := hread
      serialized_le := fun state hstate => by
        cases hstate
        exact le_refl _
      read_le_serialized := fun state hstate read hmem _ => by
        cases hstate
        exact hread read hmem
      latest_changed := by simp }

theorem CursorInv.backendStep [LiveEnv] {config : Config} (hs : CursorInv s) {a : BackendAct}
    {b : Backend} (hok : StepOk s (.backend a)) (h : Effect config s.backend a b) :
    CursorInv { s with backend := b } := by
  have hw := hs.worker.step h
  cases h with
  | commit _ created h =>
    exact hs.frame hw h.cache fun r hr => ⟨r, h.refresh ▸ hr, rfl⟩
  | apply h => exact hs.apply h
  | broadcast h => exact hs.frame hw (.refl _) fun r hr => ⟨r, hr, rfl⟩
  | quiet _ h => exact hs.frame hw h.cache fun r hr => ⟨r, h.refresh ▸ hr, rfl⟩
  | refreshBegin h =>
    refine
      { hs with
        worker := hw
        latest_changed := fun r hr hchanged => ?_ }
    -- nothing has a generation beyond the one just captured
    cases hr
    obtain ⟨k, hk⟩ := hchanged
    obtain ⟨x, hx⟩ := List.exists_mem_of_ne_nil _ hk
    have hlt := of_decide_eq_true (List.mem_filter.mp hx).2
    have hle := hs.worker.journal_le k x.key
    dsimp only at hlt
    omega
  | refreshRead h hq =>
    refine hs.frame hw (.refl _) fun r hr => ⟨_, h, ?_⟩
    cases hr
    rfl
  | refreshReadHub h =>
    refine hs.frame hw (.refl _) fun r hr => ⟨_, h, ?_⟩
    cases hr
    rfl
  | refreshReplace h hr hl => exact hs.replace h hl hok
  | refreshFail => exact hs.frame hw (.refl _) (by simp)

/-- A read returns at least what every earlier read returned. -/
theorem CursorInv.read (hs : CursorInv s) {method : ReadMethod} {state : PublicLiveState}
    (hok : StepOk s (.read method)) (h : readCache s.backend.cache method = some state) :
    CursorInv { s with
      reads := s.reads ++ [{ method, latestSeq := state.stats.latestSeq }] } := by
  have hready : s.backend.cache.ready = true := by
    by_contra hne
    cases method <;> simp [readCache, PublicStateCache.snapshot, PublicStateCache.serializedState, hne] at h
  have hlast : ∀ read ∈ s.reads, read.latestSeq ≤ state.stats.latestSeq := by
    intro read hmem
    cases method with
    | snapshot =>
      simp only [readCache, PublicStateCache.snapshot, hready, if_true, Option.some.injEq] at h
      exact h ▸ hs.read_le read hmem
    | serialized =>
      simp only [readCache, PublicStateCache.serializedState, hready, if_true] at h
      cases hmethod : read.method with
      | snapshot => exact hok state h read hmem hmethod
      | serialized => exact hs.read_le_serialized state h read hmem hmethod
  have hcursor : state.stats.latestSeq ≤ s.backend.cursor := by
    cases method with
    | snapshot =>
      simp only [readCache, PublicStateCache.snapshot, hready, if_true, Option.some.injEq] at h
      exact h ▸ le_refl _
    | serialized =>
      simp only [readCache, PublicStateCache.serializedState, hready, if_true] at h
      exact hs.serialized_le state h
  exact
    { hs with
      ordered := List.pairwise_append.mpr ⟨hs.ordered, List.pairwise_singleton .., fun a ha b hb => by
        rw [List.mem_singleton.mp hb]
        exact hlast a ha⟩
      ready := fun _ => hready
      read_le := fun read hmem => by
        rcases List.mem_append.mp hmem with hmem | hmem
        · exact hs.read_le read hmem
        · rw [List.mem_singleton.mp hmem]
          exact hcursor
      read_le_serialized := fun other hother read hmem hmethod => by
        rcases List.mem_append.mp hmem with hmem | hmem
        · exact hs.read_le_serialized other hother read hmem hmethod
        · rw [List.mem_singleton.mp hmem] at hmethod ⊢
          cases hmethod
          simp only [readCache, PublicStateCache.serializedState, hready, if_true] at h
          cases h.symm.trans hother
          exact le_refl _ }

/-- The run lemma. -/
theorem cursorInv [LiveEnv] (config : Config) :
    (observed config).InductiveOn StepOk CursorInv where
  init s hs := by
    obtain ⟨hinit, hreads⟩ := hs
    have hserialized : s.backend.cache.serialized = none := by rw [hinit.1]; rfl
    exact
      { worker := workerInv_init hinit
        ordered := by simp [hreads]
        ready := by simp [hreads]
        read_le := by simp [hreads]
        serialized_le := by simp [hserialized]
        read_le_serialized := by simp [hserialized]
        latest_changed := by simp [hinit.2.2.2.2] }
  step s a s' h hok hstep := by
    cases a with
    | backend a =>
      obtain ⟨b, hb, rfl⟩ := Option.map_eq_some_iff.mp hstep
      exact h.backendStep hok (effect_of_step hb)
    | read method =>
      obtain ⟨state, hstate, rfl⟩ := Option.map_eq_some_iff.mp hstep
      exact h.read hok hstate

/-! ## The main result -/

/-- **The snapshot cursor never goes back under the guard.** In every run whose
replacements do not install a hub sequence that is behind the cached cursor, and
whose `Serialized` reads are not behind earlier `Snapshot` reads, the cursors
that successive reads return never decrease. -/
theorem reads_never_decrease [LiveEnv] (config : Config) {s : Observed}
    (hs : (observed config).ReachOn StepOk s) :
    s.reads.Pairwise fun a b => a.latestSeq ≤ b.latestSeq :=
  ((cursorInv config).invariant hs).ordered

/-! ## Runs -/

section Runs

attribute [local instance] defaultEnv

def emptyObserved : Observed := { backend := emptyBackend, reads := [] }

theorem emptyObserved_init (config : Config) : (observed config).init emptyObserved :=
  ⟨emptyBackend_init config, rfl⟩

/-- Two refreshes around an event that is applied and broadcast in time. -/
def orderlyReads : List ObservedAct :=
  wholeRefresh.map .backend ++
    [.read .serialized, .backend (samplePacketCommit "m" 1), .backend (.publish 0),
      .read .snapshot, .backend (.publish 0)] ++
    wholeRefresh.map .backend ++ [.read .serialized, .read .snapshot]

/-- A guarded run that reads before, between and after the refreshes. -/
theorem orderlyReads_never_decrease :
    ∃ s, (observed sampleConfig).ReachOn StepOk s ∧
      s.reads.map CacheRead.latestSeq = [0, 1, 1, 1] ∧
      s.reads.Pairwise fun a b => a.latestSeq ≤ b.latestSeq := by
  obtain ⟨s, hs, htest⟩ := TSys.exists_reachOn_of_runOn (M := observed sampleConfig) StepOk
    orderlyReads (fun s => decide (s.reads.map CacheRead.latestSeq = [0, 1, 1, 1]))
    (emptyObserved_init sampleConfig) (by decide +kernel)
  exact ⟨s, hs, of_decide_eq_true htest, reads_never_decrease sampleConfig hs⟩

/-- An event is applied, and before the worker tells the hub a refresh reads the
database and the hub and replaces the state. -/
def refreshBeforeBroadcast : List ObservedAct :=
  wholeRefresh.map .backend ++
    [.backend (samplePacketCommit "m" 1), .backend (.publish 0), .read .snapshot] ++
    wholeRefresh.map .backend ++ [.read .snapshot]

/-- Without the guard a later snapshot can have an earlier cursor. -/
theorem snapshot_cursor_goes_back :
    ¬ ∀ (config : Config) (s : Observed), (observed config).Reachable s →
      s.reads.Pairwise fun a b => a.latestSeq ≤ b.latestSeq := by
  intro h
  obtain ⟨s, hs, htest⟩ := TSys.exists_reachable_of_run (M := observed sampleConfig)
    refreshBeforeBroadcast
    (fun s => decide (¬ s.reads.Pairwise fun (a b : CacheRead) => a.latestSeq ≤ b.latestSeq))
    (emptyObserved_init sampleConfig) (by decide +kernel)
  exact of_decide_eq_true htest (h sampleConfig s hs)

end Runs

end CartoLive.Theorems.CursorMonotone
