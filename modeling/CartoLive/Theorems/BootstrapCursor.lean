import CartoLive.Api.PublicState
import CartoLive.App.WorkerInvariant

/-!
# The cursor of the bootstrap answer

`publicBootstrap` copies the cached state first and asks the hub and the database
for the latest sequence afterwards, while the worker commits, applies and
broadcasts events. The cursor stays behind the copied state exactly when every
activity event that either of the two later reads can see had been applied to
the cache before the copy.
-/

namespace CartoLive.Theorems.BootstrapCursor

open CartoLive.Lib CartoLive.Go CartoLive.Live CartoLive.Store CartoLive.App CartoLive.Api

/-! ## A request beside the worker -/

/-- Where a bootstrap request stands. The backend at the copy is kept for the
statements. -/
inductive Request
  | waiting
  | copied (copy : Backend)
  | hubRead (copy : Backend) (hubSeq : Int)
  | answered (copy : Backend) (response : PublicBootstrapResponse)

/-- The backend with one request; `start` is the event counter at the start. -/
structure Serving where
  backend : Backend
  request : Request
  start : Int

inductive ServingAct
  | worker (a : BackendAct)
  | copy
  | readHub
  /-- The store read of `latestPublicSeq` succeeds or fails. -/
  | readStore (succeeds : Bool) (now : Int)

/-- The acts of the worker and the projection. -/
def isWorkerAct : BackendAct → Bool
  | .refreshBegin _ | .refreshRead _ _ | .refreshReadHub | .refreshReplace _ _
  | .refreshFail => false
  | _ => true

def servingStep [LiveEnv] (config : Config) (s : Serving) : ServingAct → Option Serving
  | .worker a =>
    if isWorkerAct a then
      (backendStep config s.backend a).map fun backend => { s with backend }
    else none
  | .copy =>
    match s.request with
    | .waiting =>
      s.backend.cache.snapshot.map fun _ => { s with request := .copied s.backend }
    | _ => none
  | .readHub =>
    match s.request with
    | .copied copy => some { s with request := .hubRead copy s.backend.hubSeq }
    | _ => none
  | .readStore succeeds now =>
    match s.request with
    | .hubRead copy hubSeq =>
      let stored :=
        if succeeds then some s.backend.db.publicEvents.latestPublicSeq else none
      some { s with
        request := .answered copy
          (publicBootstrap copy.cache.state now (latestPublicSeq hubSeq stored)) }
    | _ => none

/-- The worker and a request, from any moment of the backend at which the cache
is ready and the worker between two messages. -/
def serving [LiveEnv] (config : Config) : TSys Serving ServingAct where
  init s := (backend config).Reachable s.backend ∧ s.backend.cache.ready = true ∧
    s.backend.Idle ∧ s.request = .waiting ∧ s.start = s.backend.sequence
  step := servingStep config

/-! ## The property and its condition -/

/-- The activity that a committed event puts into the cache. -/
def activityOf (event : PublicEvent) : Option PublicActivity :=
  match publicEventDataWithSeq event.data event.seq with
  | .activity item => some item
  | _ => none

/-- An activity is in a list, or the list is full of later ones. -/
def InOrCut (list : List PublicActivity) (item : PublicActivity) : Prop :=
  item ∈ list ∨ list.length = publicCacheMaxActivity ∧ ∀ other ∈ list, item.seq < other.seq

instance (list : List PublicActivity) (item : PublicActivity) : Decidable (InOrCut list item) := by
  unfold InOrCut
  infer_instance

/-- Every activity that the run has committed with a sequence up to the reported
one is in the state that the answer was built from. -/
def CursorBehindState (s : Serving) : Prop :=
  match s.request with
  | .answered copy response =>
    ∀ event ∈ s.backend.rows, s.start < event.seq → event.seq ≤ response.latestSeq →
      ∀ item ∈ activityOf event, InOrCut copy.cache.state.recentActivity item
  | _ => True

instance (s : Serving) : Decidable (CursorBehindState s) := by
  unfold CursorBehindState
  split <;> infer_instance

/-- The event had been applied to the cache. -/
def AppliedAt (copy : Backend) (event : PublicEvent) : Prop :=
  event ∈ copy.rows ∧ (event, .apply) ∉ copy.pending

instance (copy : Backend) (event : PublicEvent) : Decidable (AppliedAt copy event) := by
  unfold AppliedAt
  infer_instance

/-- The condition on a step: what the hub or the database knows of activity when
it is asked had been applied when the state was copied. -/
def StepOk (s : Serving) : ServingAct → Prop
  | .readHub =>
    match s.request with
    | .copied copy =>
      ∀ event ∈ s.backend.rows, (activityOf event).isSome → event.seq ≤ s.backend.hubSeq →
        AppliedAt copy event
    | _ => True
  | .readStore true _ =>
    match s.request with
    | .hubRead copy _ =>
      ∀ event ∈ s.backend.rows, (activityOf event).isSome → AppliedAt copy event
    | _ => True
  | _ => True

instance (s : Serving) (a : ServingAct) : Decidable (StepOk s a) := by
  unfold StepOk
  split
  · split <;> infer_instance
  · split <;> infer_instance
  · infer_instance

/-! ## The list keeps what was applied -/

/-- An activity stands in a list behind later ones only, or the list is full of
later ones. -/
def Behind (list : List PublicActivity) (item : PublicActivity) : Prop :=
  (∃ newer older, list = newer ++ item :: older ∧ ∀ other ∈ newer, item.seq < other.seq) ∨
    list.length = publicCacheMaxActivity ∧ ∀ other ∈ list, item.seq < other.seq

theorem Behind.inOrCut {list : List PublicActivity} {item : PublicActivity}
    (h : Behind list item) : InOrCut list item := by
  rcases h with ⟨newer, older, rfl, -⟩ | hfull
  · exact Or.inl (by simp)
  · exact Or.inr hfull

/-- A new activity in front pushes an old one back or out. -/
theorem Behind.push {list : List PublicActivity} {item new : PublicActivity}
    (h : Behind list item) (hnew : item.seq < new.seq) :
    Behind ((new :: list).take publicCacheMaxActivity) item := by
  rcases h with ⟨newer, older, rfl, hnewer⟩ | ⟨hlength, hall⟩
  · have hfront : ∀ other ∈ new :: newer, item.seq < other.seq := by
      intro other hother
      rcases List.mem_cons.mp hother with rfl | hother
      · exact hnew
      · exact hnewer other hother
    rw [← List.cons_append]
    by_cases hroom : (new :: newer).length < publicCacheMaxActivity
    · -- the item itself still fits
      refine Or.inl ⟨new :: newer,
        older.take (publicCacheMaxActivity - (new :: newer).length - 1), ?_, hfront⟩
      obtain ⟨n, hn⟩ := Nat.exists_eq_add_of_lt hroom
      rw [List.take_append, List.take_of_length_le hroom.le, hn]
      congr 1
      have : (new :: newer).length + n + 1 - (new :: newer).length = n + 1 := by omega
      rw [this, List.take_succ_cons]
      congr 1
    · have htake : ((new :: newer) ++ item :: older).take publicCacheMaxActivity =
          (new :: newer).take publicCacheMaxActivity := by
        rw [List.take_append_of_le_length (by omega)]
      refine Or.inr ⟨?_, fun other hother => hfront other ?_⟩
      · rw [htake, List.length_take]
        omega
      · rw [htake] at hother
        exact List.mem_of_mem_take hother
  · refine Or.inr ⟨?_, fun other hother => ?_⟩
    · rw [List.length_take, List.length_cons, hlength]
      omega
    · rcases List.mem_cons.mp (List.mem_of_mem_take hother) with rfl | hother
      · exact hnew
      · exact hall other hother

/-- The activity list after an update of a ready cache. -/
theorem recentActivity_apply {c : PublicStateCache} (h : c.ready = true) (now : Int)
    (data : PublicData) :
    (c.apply now data).state.recentActivity =
      match data with
      | .activity item => (item :: c.state.recentActivity).take publicCacheMaxActivity
      | _ => c.state.recentActivity := by
  cases data with
  | node item =>
    simp only [PublicStateCache.apply, PublicStateCache.applyNode, h, Bool.not_true,
      Bool.false_eq_true, if_false, PublicStateCache.recordLiveUpdateLocked]
    split <;> rfl
  | activity item =>
    simp only [PublicStateCache.apply, PublicStateCache.applyActivity, h, Bool.not_true,
      Bool.false_eq_true, if_false, PublicStateCache.recordLiveUpdateLocked,
      PublicStateCache.advanceServerTime]
    split <;> split <;> rfl
  | pulse item =>
    simp only [PublicStateCache.apply, PublicStateCache.applyRoutePulse, h, Bool.not_true,
      Bool.false_eq_true, if_false, PublicStateCache.recordLiveUpdateLocked,
      PublicStateCache.advanceServerTime]
    split <;> split <;> rfl

theorem seq_activityOf {event : PublicEvent} {item : PublicActivity}
    (h : item ∈ activityOf event) : item.seq = event.seq := by
  unfold activityOf at h
  cases hdata : event.data <;> simp [hdata, publicEventDataWithSeq] at h
  rw [← h]

/-- Every activity of the run that has been applied is still in the list, or cut. -/
def Kept (start : Int) (b : Backend) : Prop :=
  ∀ event ∈ b.rows, start < event.seq → (event, .apply) ∉ b.pending →
    ∀ item ∈ activityOf event, Behind b.cache.state.recentActivity item

variable {start : Int} {b b' : Backend}

theorem Kept.commit (hb : Kept start b) {created : List PublicEvent}
    (h : Committed b b' created) : Kept start b' := by
  intro event hevent hstart hdone item hitem
  rw [h.pending, mem_flatMap_publishOps] at hdone
  rw [h.rows] at hevent
  have hold := (List.mem_append.mp hevent).resolve_right hdone
  rw [h.cache.recentActivity]
  exact hb event hold hstart (by simp [h.idle]) item hitem

theorem Kept.quiet (hb : Kept start b) (h : Quieted b b') : Kept start b' := by
  intro event hevent hstart hdone item hitem
  rw [Backend.rows, h.publicEvents] at hevent
  rw [h.pending] at hdone
  rw [h.cache.recentActivity]
  exact hb event hevent hstart hdone item hitem

theorem Kept.broadcast (hb : Kept start b) {event : PublicEvent}
    {rest : List (PublicEvent × Op)} (h : b.pending = (event, .broadcast) :: rest)
    (hubSeq : Int) : Kept start { b with pending := rest, hubSeq } := by
  intro e he hstart hdone item hitem
  refine hb e he hstart (fun hin => ?_) item hitem
  rw [h] at hin
  rcases List.mem_cons.mp hin with heq | hin
  · cases heq
  · exact hdone hin

/-- Applying an event puts its activity in front of everything applied before. -/
theorem Kept.apply (hb : Kept start b) (hw : WorkerInv b) (hready : b.cache.ready = true)
    {event : PublicEvent} {now : Int} {rest : List (PublicEvent × Op)}
    (h : b.pending = (event, .apply) :: rest) :
    Kept start { b with
      pending := rest
      cache := b.cache.apply now (publicEventDataWithSeq event.data event.seq) } := by
  intro e he hstart hdone item hitem
  show Behind (b.cache.apply _ _).state.recentActivity item
  rw [recentActivity_apply hready]
  by_cases hcase : (e, Op.apply) = (event, Op.apply)
  · -- the event's own activity is the new head
    obtain ⟨rfl, -⟩ := Prod.mk.inj hcase
    unfold activityOf at hitem
    split at hitem
    · rename_i new hdata
      cases hitem
      exact Or.inl ⟨[], b.cache.state.recentActivity.take 239, rfl, by simp⟩
    · cases hitem
  · have hbefore : (e, Op.apply) ∉ b.pending := by
      rw [h]
      intro hin
      exact (List.mem_cons.mp hin).elim hcase hdone
    have hbehind := hb e he hstart hbefore item hitem
    split
    · rename_i new hdata
      have hlt := hw.done_below .apply e he hbefore event (h ▸ List.mem_cons_self)
      have hnew : new.seq = event.seq := seq_activityOf (by simp [activityOf, hdata])
      rw [← seq_activityOf hitem, ← hnew] at hlt
      exact hbehind.push hlt
    · exact hbehind

/-! ## The invariant -/

/-- What a request that has read up to a sequence needs: every activity up to it
had been applied at the copy. -/
def AppliedUpTo (b copy : Backend) (seq : Int) : Prop :=
  seq ≤ b.sequence ∧
    ∀ event ∈ b.rows, (activityOf event).isSome → event.seq ≤ seq → AppliedAt copy event

/-- New rows are beyond everything that was read. -/
theorem AppliedUpTo.mono {copy : Backend} {seq : Int} (h : AppliedUpTo b copy seq)
    (hsequence : b.sequence ≤ b'.sequence)
    (hrows : ∀ event ∈ b'.rows, event ∈ b.rows ∨ b.sequence < event.seq) :
    AppliedUpTo b' copy seq := by
  refine ⟨h.1.trans hsequence, fun event hevent hactivity hle => ?_⟩
  rcases hrows event hevent with hold | hnew
  · exact h.2 event hold hactivity hle
  · have := h.1
    omega

def RequestInv (start : Int) (b : Backend) : Request → Prop
  | .waiting => True
  | .copied copy => Kept start copy
  | .hubRead copy hubSeq => Kept start copy ∧ AppliedUpTo b copy hubSeq
  | .answered copy response => Kept start copy ∧ AppliedUpTo b copy response.latestSeq

theorem RequestInv.mono {request : Request} (h : RequestInv start b request)
    (hsequence : b.sequence ≤ b'.sequence)
    (hrows : ∀ event ∈ b'.rows, event ∈ b.rows ∨ b.sequence < event.seq) :
    RequestInv start b' request := by
  cases request with
  | waiting => trivial
  | copied copy => exact h
  | hubRead copy hubSeq => exact ⟨h.1, h.2.mono hsequence hrows⟩
  | answered copy response => exact ⟨h.1, h.2.mono hsequence hrows⟩

structure ServingInv (s : Serving) : Prop where
  worker : WorkerInv s.backend
  ready : s.backend.cache.ready = true
  kept : Kept s.start s.backend
  request : RequestInv s.start s.backend s.request

theorem ServingInv.worker_step [LiveEnv] {config : Config} {s : Serving} {a : BackendAct}
    (hs : ServingInv s) (ha : isWorkerAct a = true) (h : Effect config s.backend a b') :
    ServingInv { s with backend := b' } := by
  have hw := hs.worker.step h
  cases h with
  | commit _ created h =>
    exact
      { worker := hw
        ready := h.cache.ready.trans hs.ready
        kept := hs.kept.commit h
        request := hs.request.mono h.sequence fun event hevent => by
          rw [h.rows] at hevent
          exact (List.mem_append.mp hevent).imp_right (h.fresh event) }
  | apply h =>
    exact
      { worker := hw
        ready := (PublicStateCache.apply_applied hs.ready _ _).ready
        kept := hs.kept.apply hs.worker hs.ready h
        request := hs.request.mono (le_refl _) fun _ => Or.inl }
  | broadcast h =>
    exact
      { worker := hw
        ready := hs.ready
        kept := hs.kept.broadcast h _
        request := hs.request.mono (le_refl _) fun _ => Or.inl }
  | quiet _ h =>
    exact
      { worker := hw
        ready := h.cache.ready.trans hs.ready
        kept := hs.kept.quiet h
        request := hs.request.mono (by rw [Backend.sequence, Backend.sequence, h.publicEvents])
          fun event hevent => by
            rw [Backend.rows, h.publicEvents] at hevent
            exact Or.inl hevent }
  | refreshBegin | refreshRead | refreshReadHub | refreshReplace | refreshFail => cases ha

theorem ServingInv.step [LiveEnv] {config : Config} {s s' : Serving} {a : ServingAct}
    (hs : ServingInv s) (hok : StepOk s a) (h : servingStep config s a = some s') :
    ServingInv s' := by
  cases a with
  | worker a =>
    simp only [servingStep] at h
    split at h
    · rename_i ha
      obtain ⟨b, hb, rfl⟩ := Option.map_eq_some_iff.mp h
      exact hs.worker_step ha (effect_of_step hb)
    · cases h
  | copy =>
    simp only [servingStep] at h
    split at h
    · obtain ⟨state, -, rfl⟩ := Option.map_eq_some_iff.mp h
      exact { hs with request := hs.kept }
    · cases h
  | readHub =>
    simp only [servingStep] at h
    split at h <;> cases h
    rename_i copy hcopied
    have hreq := hs.request
    rw [hcopied] at hreq
    simp only [StepOk, hcopied] at hok
    exact { hs with request := ⟨hreq, hs.worker.hub_le_sequence, hok⟩ }
  | readStore succeeds now =>
    simp only [servingStep] at h
    split at h <;> cases h
    rename_i copy hubSeq hread
    have hreq := hs.request
    rw [hread] at hreq
    cases succeeds with
    | false => exact { hs with request := hreq }
    | true =>
      simp only [StepOk, hread] at hok
      refine { hs with request := ⟨hreq.1, ?_, fun event hevent hactivity _ =>
        hok event hevent hactivity⟩ }
      have hstored := s.backend.db.publicEvents.latestPublicSeq_le_sequence
      show latestPublicSeq hubSeq (some _) ≤ _
      unfold latestPublicSeq
      dsimp only
      split
      · exact hstored
      · exact hreq.2.1

/-- The run lemma. -/
theorem servingInv [LiveEnv] (config : Config) :
    (serving config).InductiveOn StepOk ServingInv where
  init s hs := by
    obtain ⟨hreachable, hready, -, hrequest, hstart⟩ := hs
    refine { worker := workerInv_of_reachOn hreachable, ready := hready, kept := ?_, request := by rw [hrequest]; trivial }
    -- nothing has been committed in this run yet
    intro event hevent hlt
    have := row_le_sequence hevent
    omega
  step _ _ _ h hok hstep := h.step hok hstep

/-! ## The main result -/

/-- **The bootstrap cursor stays behind the bootstrap state under the guard.** In
every run in which the hub and the database, when asked, report no activity that
had not been applied at the copy, every activity up to the reported cursor is in
the list that the answer was built from, or was cut by the size of the list. -/
theorem bootstrap_cursor_behind_state [LiveEnv] (config : Config) {s : Serving}
    (hs : (serving config).ReachOn StepOk s) : CursorBehindState s := by
  have h := (servingInv config).invariant hs
  have hreq := h.request
  unfold CursorBehindState
  split
  · rename_i copy response hanswered
    rw [hanswered] at hreq
    obtain ⟨hkept, -, hupto⟩ := hreq
    intro event hevent hstart hle item hitem
    obtain ⟨hrow, hdone⟩ := hupto event hevent (Option.isSome_of_mem hitem) hle
    exact (hkept event hrow hstart hdone item hitem).inOrCut
  · trivial

/-! ## Runs -/

section Runs

attribute [local instance] defaultEnv

/-- An empty database whose cache has been warmed. -/
def warmServing : Serving :=
  { backend := ((backend sampleConfig).run emptyBackend wholeRefresh).getD emptyBackend
    request := .waiting
    start := 0 }

theorem warmServing_init : (serving sampleConfig).init warmServing := by
  have hrun : (backend sampleConfig).run emptyBackend wholeRefresh = some warmServing.backend := by
    have hsome : ((backend sampleConfig).run emptyBackend wholeRefresh).isSome = true := by
      decide +kernel
    rw [warmServing, ← Option.get_eq_getD _ (h := hsome), Option.some_get hsome]
  exact ⟨TSys.reachable_of_run wholeRefresh (emptyBackend_init _) hrun, by decide +kernel,
    by decide +kernel, rfl, by decide +kernel⟩

/-- The request copies the state between two messages. -/
def copyBetweenMessages : List ServingAct :=
  [.worker (samplePacketCommit "m" 1), .worker (.publish 0), .worker (.publish 0), .copy, .readHub,
    .readStore true 0, .worker (samplePacketCommit "n" 2)]

/-- A guarded run with an answer that covers the first of two activities. -/
theorem copyBetweenMessages_behind_state :
    ∃ s, (serving sampleConfig).ReachOn StepOk s ∧
      (match s.request with
        | .answered _ response => response.latestSeq = 1
        | _ => False) ∧
      s.backend.rows.length = 2 ∧ CursorBehindState s := by
  obtain ⟨s, hs, htest⟩ := TSys.exists_reachOn_of_runOn (M := serving sampleConfig)
    StepOk copyBetweenMessages
    (fun s : Serving =>
      (match s.request with
        | .answered _ response => decide (response.latestSeq = 1)
        | _ => false) && decide (s.backend.rows.length = 2))
    warmServing_init (by decide +kernel)
  obtain ⟨hanswer, hrows⟩ := Bool.and_eq_true_iff.mp htest
  refine ⟨s, hs, ?_, of_decide_eq_true hrows, bootstrap_cursor_behind_state sampleConfig hs⟩
  revert hanswer
  split <;> simp

/-- The request copies the state, and the worker publishes an activity before
the request asks for the cursor. -/
def publishAfterCopy : List ServingAct :=
  [.copy, .worker (samplePacketCommit "m" 1), .worker (.publish 0), .worker (.publish 0), .readHub,
    .readStore true 0]

/-- Without the guard an answer can report a cursor ahead of its state. -/
theorem bootstrap_cursor_ahead :
    ¬ ∀ (config : Config) (s : Serving), (serving config).Reachable s → CursorBehindState s := by
  intro h
  obtain ⟨s, hs, htest⟩ := TSys.exists_reachable_of_run (M := serving sampleConfig)
    publishAfterCopy (fun s : Serving => decide (¬ CursorBehindState s))
    warmServing_init (by decide +kernel)
  exact of_decide_eq_true htest (h sampleConfig s hs)

end Runs

end CartoLive.Theorems.BootstrapCursor
