import CartoLive.Web.SourceDataQueue
import Mathlib.Data.List.Induction

/-!
# Map sources converge to the latest data

The signature that the queue remembers of a source runs ahead of what the source holds. It
stands for data that wait for the frame or that the source has (`Carries`), in every state that
calls, frames and added sources lead to. From there the fate of one call follows: what it
offers stays carried until the next frame, and is then delivered or forgotten.

## Main results

* `sources_converge` : the frames, the data of the latest call, the skipped calls, the calls
  for a missing source, and the end.
-/

namespace CartoLive.Theorems.SourceConvergence

open CartoLive.Lib CartoLive.Lib.Keyed CartoLive.Web SourceMap

variable {Feature : Type} (stringify : FeatureCollection Feature → List UInt16)
variable {m m' : SourceMap Feature} {sourceID : String} {data : FeatureCollection Feature}

/-- The data of a source that wait for the frame. -/
def pendingData (m : SourceMap Feature) (sourceID : String) : Option (FeatureCollection Feature) :=
  (m.queue.bind fun queue => Keyed.get Prod.fst sourceID queue.pending).map Prod.snd

/-- The remembered signature of a source. -/
def signatureOf (m : SourceMap Feature) (sourceID : String) : Option String :=
  m.queue.bind fun queue => queue.signatures sourceID

/-- A source is about to receive data, or holds them. -/
def Carries (m : SourceMap Feature) (sourceID : String) (data : FeatureCollection Feature) : Prop :=
  pendingData m sourceID = some data ∨
    pendingData m sourceID = none ∧ m.sources sourceID = some data

/-! ## The frame -/

theorem flushEntry_eq (loop : SourceMap Feature × (String → Option String))
    (entry : String × FeatureCollection Feature) :
    flushEntry loop entry =
      match loop.1.sources entry.1 with
      | none => (loop.1, Function.update loop.2 entry.1 none)
      | some _ =>
        ({ loop.1 with
            sources := Function.update loop.1.sources entry.1 (some entry.2)
            writes := loop.1.writes ++ [entry] },
          loop.2) := by
  unfold flushEntry applySourceData
  cases loop.1.sources entry.1 <;> rfl

/-- The loop of a frame leaves the queue and the frames alone. -/
theorem foldl_flushEntry_fields (pending : List (String × FeatureCollection Feature))
    (loop : SourceMap Feature × (String → Option String)) :
    (pending.foldl flushEntry loop).1 =
      { loop.1 with
        sources := (pending.foldl flushEntry loop).1.sources
        writes := (pending.foldl flushEntry loop).1.writes } := by
  induction pending generalizing loop with
  | nil => rfl
  | cons entry pending ih =>
    rw [List.foldl_cons, ih]
    have hfields : (flushEntry loop entry).1 =
        { loop.1 with
          sources := (flushEntry loop entry).1.sources
          writes := (flushEntry loop entry).1.writes } := by
      rw [flushEntry_eq]
      split <;> rfl
    rw [hfields]

/-- What the loop does to one source: its data are written if it is there, and else its
signature is forgotten. -/
theorem foldl_flushEntry_source {pending : List (String × FeatureCollection Feature)}
    (h : (pending.map Prod.fst).Nodup) (loop : SourceMap Feature × (String → Option String))
    (id : String) :
    (pending.foldl flushEntry loop).1.sources id =
        (loop.1.sources id).map (((Keyed.get Prod.fst id pending).map Prod.snd).getD ·) ∧
      (pending.foldl flushEntry loop).2 id =
        if Keyed.get Prod.fst id pending ≠ none ∧ loop.1.sources id = none then none
        else loop.2 id := by
  induction pending generalizing loop with
  | nil => simp
  | cons entry pending ih =>
    rw [List.map_cons, List.nodup_cons] at h
    rw [List.foldl_cons, Keyed.get_cons]
    obtain ⟨hsources, hsignatures⟩ := ih h.2 (flushEntry loop entry)
    rw [hsources, hsignatures]
    by_cases hid : entry.1 = id
    · -- no later entry is for this source
      have hlater : Keyed.get Prod.fst id pending = none :=
        Keyed.get_eq_none_iff.mpr (hid ▸ h.1)
      rw [if_pos hid, hlater, flushEntry_eq, hid]
      cases hsource : loop.1.sources id with
      | none => simp [hsource]
      | some old => simp
    · rw [if_neg hid]
      have hother : (flushEntry loop entry).1.sources id = loop.1.sources id ∧
          (flushEntry loop entry).2 id = loop.2 id := by
        rw [flushEntry_eq]
        split
        · exact ⟨rfl, Function.update_of_ne (Ne.symm hid) _ _⟩
        · exact ⟨Function.update_of_ne (Ne.symm hid) _ _, rfl⟩
      rw [hother.1, hother.2]
      exact ⟨rfl, rfl⟩

/-- What a frame does to one source. -/
theorem flush_source (hlive : m.disposed = false) (id : String) :
    m.flush.sources id = (m.sources id).map ((pendingData m id).getD ·) ∧
      signatureOf m.flush id =
        (if pendingData m id ≠ none ∧ m.sources id = none then none else signatureOf m id) ∧
      pendingData m.flush id = none := by
  unfold flush
  rw [if_neg (by simp [hlive])]
  cases hqueue : m.queue with
  | none =>
    dsimp only
    simp [pendingData, signatureOf, hqueue]
  | some queue =>
    obtain ⟨hsources, hsignatures⟩ := foldl_flushEntry_source queue.nodup (m, queue.signatures) id
    dsimp only
    refine ⟨?_, ?_, rfl⟩
    · rw [hsources]
      simp [pendingData, hqueue]
    · show (queue.pending.foldl flushEntry (m, queue.signatures)).2 id = _
      rw [hsignatures]
      simp [pendingData, signatureOf, hqueue]

/-- What a frame leaves of a queue. -/
theorem exists_flush_eq (hlive : m.disposed = false) {queue : SourceUpdateQueue Feature}
    (hqueue : m.queue = some queue) :
    ∃ sources writes signatures, m.flush =
      { m with
        queue := some { frame := 0, pending := [], signatures, nodup := List.nodup_nil }
        sources
        writes } := by
  unfold flush
  rw [if_neg (by simp [hlive]), hqueue]
  dsimp only
  have hfields := foldl_flushEntry_fields queue.pending (m, queue.signatures)
  generalize queue.pending.foldl flushEntry (m, queue.signatures) = loop at hfields ⊢
  refine ⟨loop.1.sources, loop.1.writes, loop.2, ?_⟩
  rw [hfields]

/-! ## Frames that are armed -/

/-- A frame is armed exactly while something waits for it. -/
structure Armed (m : SourceMap Feature) : Prop where
  armed_eq : m.armed = match m.queue with
    | none => []
    | some queue => if queue.frame = 0 then [] else [queue.frame]
  idle : ∀ queue, m.queue = some queue → queue.frame = 0 → queue.pending = []
  live : m.disposed = false → m.cancelled = []
  disposed : m.disposed = true → m.queue = none

theorem armed_new (sources : String → Option (FeatureCollection Feature)) :
    Armed (SourceMap.new sources) := ⟨rfl, nofun, fun _ => rfl, nofun⟩

theorem Armed.setSourceData (h : Armed m) (signature : Option String) :
    Armed (m.setSourceData stringify sourceID data signature).1 := by
  unfold SourceMap.setSourceData
  split
  · exact h
  · rename_i hlive
    dsimp only
    have harmed : m.armed = if (m.queue.getD .empty).frame = 0 then [] else
        [(m.queue.getD .empty).frame] := by
      rw [h.armed_eq]
      cases m.queue <;> rfl
    have hidle : (m.queue.getD .empty).frame = 0 → (m.queue.getD .empty).pending = [] := by
      cases hqueue : m.queue with
      | none => exact fun _ => rfl
      | some queue => exact h.idle queue hqueue
    split
    · refine ⟨harmed, ?_, h.live, fun hdisposed => absurd hdisposed hlive⟩
      rintro queue ⟨⟩ hframe
      exact hidle hframe
    · split
      · rename_i hframe
        refine ⟨harmed, ?_, h.live, fun hdisposed => absurd hdisposed hlive⟩
        rintro queue ⟨⟩ hzero
        exact absurd hzero hframe
      · rename_i hframe
        refine ⟨?_, ?_, h.live, fun hdisposed => absurd hdisposed hlive⟩
        · show m.armed ++ [m.requests + 1] = [m.requests + 1]
          rw [harmed, if_pos (not_not.mp hframe), List.nil_append]
        · rintro queue ⟨⟩ hzero
          exact absurd hzero (Nat.succ_ne_zero _)

theorem Armed.frame (h : Armed m) {handle : Nat}
    (hstep : m.step stringify (.frame handle) = some m') : Armed m' := by
  dsimp only [SourceMap.step] at hstep
  split at hstep
  · rename_i hmem
    cases hstep
    cases hdisposed : m.disposed with
    | true =>
      have hnone : m.queue = none := h.disposed hdisposed
      have hempty : m.armed = [] := by rw [h.armed_eq, hnone]
      have hsame : (m.takeFrame handle).flush = m.takeFrame handle := if_pos hdisposed
      rw [hsame]
      refine ⟨?_, fun queue hqueue => ?_, fun hlive => ?_, fun _ => hnone⟩
      · simp [takeFrame, hempty, hnone]
      · exact absurd (hnone.symm.trans hqueue) nofun
      · exact absurd (hdisposed.symm.trans hlive) (Ne.symm Bool.false_ne_true)
    | false =>
      have hcancelled : m.cancelled = [] := h.live hdisposed
      have harmed := h.armed_eq
      rw [hcancelled, List.append_nil] at hmem
      cases hqueue : m.queue with
      | none =>
        rw [hqueue] at harmed
        rw [harmed] at hmem
        cases hmem
      | some queue =>
        rw [hqueue] at harmed
        dsimp only at harmed
        -- the frame that runs is the only one
        have hnone : (m.armed.filter fun other => other ≠ handle) = [] := by
          split at harmed
          · rw [harmed] at hmem
            cases hmem
          · rw [harmed, List.mem_singleton] at hmem
            rw [harmed, hmem]
            simp
        obtain ⟨sources, writes, signatures, heq⟩ :=
          exists_flush_eq (m := m.takeFrame handle) hdisposed hqueue
        rw [heq]
        refine ⟨hnone, ?_, ?_, ?_⟩
        · rintro queue ⟨⟩ -
          rfl
        · intro _
          show m.cancelled.filter _ = []
          rw [hcancelled]
          rfl
        · intro htrue
          exact absurd (hdisposed.symm.trans htrue) Bool.false_ne_true
  · cases hstep

theorem Armed.dispose (h : Armed m) : Armed m.disposeSourceDataQueue := by
  have harmed := h.armed_eq
  unfold disposeSourceDataQueue
  dsimp only
  cases hqueue : m.queue with
  | none =>
    rw [hqueue] at harmed
    exact ⟨harmed, nofun, nofun, fun _ => rfl⟩
  | some queue =>
    rw [hqueue] at harmed
    dsimp only at harmed ⊢
    refine ⟨?_, nofun, ?_, fun _ => rfl⟩
    · split
      · rename_i hframe
        rw [if_neg hframe] at harmed
        simp [harmed]
      · rename_i hframe
        rw [if_pos (not_not.mp hframe)] at harmed
        exact harmed
    · split <;> nofun

theorem Armed.step (h : Armed m) {event : SourceEvent Feature}
    (hstep : m.step stringify event = some m') : Armed m' := by
  cases event with
  | setSourceData id data signature =>
    cases hstep
    exact h.setSourceData stringify signature
  | frame handle => exact h.frame stringify hstep
  | addSource id data =>
    dsimp only [SourceMap.step] at hstep
    split at hstep
    · cases hstep
      exact ⟨h.armed_eq, h.idle, h.live, h.disposed⟩
    · cases hstep
  | dispose =>
    cases hstep
    exact h.dispose

/-! ## What is carried -/

/-- The queue after a call that is not skipped. -/
theorem setSourceData_spec (hlive : m.disposed = false) (id : String)
    (data : FeatureCollection Feature) (signature : Option String) :
    let called := m.setSourceData stringify id data signature
    called.1.disposed = false ∧ called.1.sources = m.sources ∧
      (called.2 = .skipped ∧ signatureOf m id = some (nextSignature stringify data signature) ∧
          (∀ other, pendingData called.1 other = pendingData m other) ∧
          (∀ other, signatureOf called.1 other = signatureOf m other) ∨
        called.2 = .queued ∧ signatureOf m id ≠ some (nextSignature stringify data signature) ∧
          (∀ other, pendingData called.1 other =
            if id = other then some data else pendingData m other) ∧
          ∀ other, signatureOf called.1 other =
            if id = other then some (nextSignature stringify data signature)
            else signatureOf m other) := by
  have hpending : ∀ other, pendingData m other =
      (Keyed.get Prod.fst other (m.queue.getD .empty).pending).map Prod.snd := fun other => by
    unfold pendingData
    cases m.queue <;> rfl
  have hsignature : ∀ other, signatureOf m other = (m.queue.getD .empty).signatures other :=
    fun other => by
      unfold signatureOf
      cases m.queue <;> rfl
  -- what a queue has after the two maps are set
  have hset : ∀ other, (Keyed.get Prod.fst other
        (setEntry (m.queue.getD .empty).pending id data)).map Prod.snd =
      if id = other then some data else pendingData m other := fun other => by
    rw [get_setEntry, hpending]
    split <;> rfl
  have hupdate : ∀ other, Function.update (m.queue.getD .empty).signatures id
        (some (nextSignature stringify data signature)) other =
      if id = other then some (nextSignature stringify data signature) else signatureOf m other :=
    fun other => by
      rw [hsignature]
      by_cases h : id = other
      · subst h
        rw [Function.update_self, if_pos rfl]
      · rw [Function.update_of_ne (Ne.symm h), if_neg h]
  dsimp only
  unfold SourceMap.setSourceData
  rw [if_neg (by simp [hlive])]
  dsimp only
  split
  · rename_i hsame
    refine ⟨hlive, rfl, .inl ⟨rfl, (hsignature id).trans hsame, fun other => ?_, fun other => ?_⟩⟩
    · exact (hpending other).symm
    · exact (hsignature other).symm
  · rename_i hnew
    have hnew' : signatureOf m id ≠ some (nextSignature stringify data signature) := fun h =>
      hnew ((hsignature id).symm.trans h)
    split
    · exact ⟨hlive, rfl, .inr ⟨rfl, hnew', hset, hupdate⟩⟩
    · exact ⟨hlive, rfl, .inr ⟨rfl, hnew', hset, hupdate⟩⟩

/-- The remembered signature of each source is that of a call whose data are carried. -/
def Remembers (history : List (SourceEvent Feature)) (m : SourceMap Feature) : Prop :=
  ∀ id signature, signatureOf m id = some signature → ∃ data given,
    .setSourceData id data given ∈ history ∧ nextSignature stringify data given = signature ∧
      Carries m id data

theorem signatureOf_of_disposed (h : Armed m) (hdisposed : m.disposed = true) (id : String) :
    signatureOf m id = none := by
  rw [signatureOf, h.disposed hdisposed]
  rfl

/-- A frame that runs on a map that is not disposed of. -/
theorem step_frame {handle : Nat} (hlive : m.disposed = false)
    (hstep : m.step stringify (.frame handle) = some m') (id : String) :
    m'.sources id = (m.sources id).map ((pendingData m id).getD ·) ∧
      signatureOf m' id =
        (if pendingData m id ≠ none ∧ m.sources id = none then none else signatureOf m id) ∧
      pendingData m' id = none := by
  dsimp only [SourceMap.step] at hstep
  split at hstep
  · cases hstep
    exact flush_source (m := m.takeFrame handle) hlive id
  · cases hstep

/-- What a source carries through an event that neither offers it other data nor ends the map. -/
theorem Carries.step (h : Carries m sourceID data) {event : SourceEvent Feature}
    (hstep : m.step stringify event = some m')
    (hother : ∀ other signature, event ≠ .setSourceData sourceID other signature)
    (hlive : m.disposed = false) (hend : event ≠ .dispose)
    (hthere : ∀ handle, event = .frame handle → m.sources sourceID ≠ none) :
    Carries m' sourceID data ∧ signatureOf m' sourceID = signatureOf m sourceID := by
  cases event with
  | setSourceData id other signature =>
    cases hstep
    have hne : id ≠ sourceID := fun heq => hother other signature (heq ▸ rfl)
    obtain ⟨-, hsources, hcall⟩ := setSourceData_spec stringify hlive id other signature
    unfold Carries
    rcases hcall with ⟨-, -, hpending, hsignature⟩ | ⟨-, -, hpending, hsignature⟩
    · rw [hpending, hsources, hsignature]
      exact ⟨h, rfl⟩
    · rw [hpending, hsources, hsignature, if_neg hne, if_neg hne]
      exact ⟨h, rfl⟩
  | frame handle =>
    obtain ⟨hsources, hsignature, hpending⟩ := step_frame stringify hlive hstep sourceID
    have hsource := hthere handle rfl
    refine ⟨.inr ⟨hpending, ?_⟩, ?_⟩
    · obtain ⟨old, hold⟩ := Option.ne_none_iff_exists'.mp hsource
      rw [hsources, hold]
      rcases h with hwait | ⟨hnone, hheld⟩
      · rw [hwait]
        rfl
      · rw [hnone]
        exact hold.symm.trans hheld
    · rw [hsignature, if_neg fun hmissing => hsource hmissing.2]
  | addSource id initial =>
    dsimp only [SourceMap.step] at hstep
    split at hstep
    · rename_i hmissing
      cases hstep
      refine ⟨?_, rfl⟩
      rcases h with hwait | ⟨hnone, hheld⟩
      · exact .inl hwait
      · have hne : sourceID ≠ id := by
          rintro rfl
          rw [hmissing] at hheld
          cases hheld
        exact .inr ⟨hnone, (Function.update_of_ne hne _ _).trans hheld⟩
    · cases hstep
  | dispose => exact absurd rfl hend

theorem disposeSourceDataQueue_fields (m : SourceMap Feature) :
    m.disposeSourceDataQueue.disposed = true ∧ m.disposeSourceDataQueue.queue = none ∧
      m.disposeSourceDataQueue.sources = m.sources ∧
      m.disposeSourceDataQueue.writes = m.writes := by
  unfold disposeSourceDataQueue
  dsimp only
  split
  · rename_i hqueue
    exact ⟨rfl, hqueue, rfl, rfl⟩
  · dsimp only
    split <;> exact ⟨rfl, rfl, rfl, rfl⟩

/-- What a map that is disposed of still does. -/
theorem step_of_disposed (hdisposed : m.disposed = true) {event : SourceEvent Feature}
    (hstep : m.step stringify event = some m') :
    m'.disposed = true ∧ m'.writes = m.writes := by
  cases event with
  | setSourceData id data signature =>
    cases hstep
    have hsame : m.setSourceData stringify id data signature = (m, .ignored) := if_pos hdisposed
    rw [hsame]
    exact ⟨hdisposed, rfl⟩
  | frame handle =>
    dsimp only [SourceMap.step] at hstep
    split at hstep
    · cases hstep
      have hsame : (m.takeFrame handle).flush = m.takeFrame handle := if_pos hdisposed
      rw [hsame]
      exact ⟨hdisposed, rfl⟩
    · cases hstep
  | addSource id data =>
    dsimp only [SourceMap.step] at hstep
    split at hstep
    · cases hstep
      exact ⟨hdisposed, rfl⟩
    · cases hstep
  | dispose =>
    cases hstep
    exact ⟨(disposeSourceDataQueue_fields m).1, (disposeSourceDataQueue_fields m).2.2.2⟩

/-- A map that is not disposed of has not been before. -/
theorem live_of_step {event : SourceEvent Feature} (hstep : m.step stringify event = some m')
    (hlive : m'.disposed = false) : m.disposed = false ∧ event ≠ .dispose := by
  constructor
  · by_contra hdisposed
    have hstays := (step_of_disposed stringify (by simpa using hdisposed) hstep).1
    exact Bool.false_ne_true (hlive.symm.trans hstays)
  · rintro rfl
    cases hstep
    exact Bool.false_ne_true (hlive.symm.trans (disposeSourceDataQueue_fields m).1)

/-! ## Every state -/

theorem Remembers.step {history : List (SourceEvent Feature)} (h : Remembers stringify history m)
    (harmed : Armed m) {event : SourceEvent Feature} (hstep : m.step stringify event = some m') :
    Remembers stringify (history ++ [event]) m' := by
  intro id signature hsignature
  have harmed' : Armed m' := harmed.step stringify hstep
  have hlive' : m'.disposed = false := by
    by_contra hdisposed
    rw [signatureOf_of_disposed harmed' (by simpa using hdisposed)] at hsignature
    cases hsignature
  obtain ⟨hlive, hend⟩ := live_of_step stringify hstep hlive'
  -- what was remembered before the event
  have hearlier : signatureOf m id = some signature →
      (∀ data, Carries m id data → Carries m' id data) → ∃ data given,
        .setSourceData id data given ∈ history ++ [event] ∧
          nextSignature stringify data given = signature ∧ Carries m' id data := by
    intro hold hkeeps
    obtain ⟨data, given, hmem, hnext, hcarries⟩ := h id signature hold
    exact ⟨data, given, List.mem_append_left _ hmem, hnext, hkeeps data hcarries⟩
  have hkeeps : (∀ other given, event ≠ .setSourceData id other given) →
      (∀ handle, event = .frame handle → m.sources id ≠ none) →
      ∀ data, Carries m id data → Carries m' id data := fun hother hthere data hcarries =>
    (hcarries.step stringify hstep hother hlive hend hthere).1
  cases event with
  | setSourceData other data given =>
    cases hstep
    obtain ⟨-, hsources, hcall⟩ := setSourceData_spec stringify hlive other data given
    rcases hcall with ⟨-, -, hpending, hsame⟩ | ⟨-, -, hpending, hsame⟩
    · refine hearlier ((hsame id).symm.trans hsignature) fun old hcarries => ?_
      unfold Carries
      rw [hpending, hsources]
      exact hcarries
    · by_cases hid : other = id
      · subst hid
        rw [hsame, if_pos rfl] at hsignature
        refine ⟨data, given, by simp, Option.some.inj hsignature, .inl ?_⟩
        rw [hpending, if_pos rfl]
      · rw [hsame, if_neg hid] at hsignature
        refine hearlier hsignature (hkeeps (fun _ _ heq => hid ?_) nofun)
        injection heq
  | frame handle =>
    obtain ⟨-, hsame, -⟩ := step_frame stringify hlive hstep id
    rw [hsame] at hsignature
    split at hsignature
    · cases hsignature
    · rename_i hnot
      obtain ⟨data, given, hmem, hnext, hcarries⟩ := h id signature hsignature
      have hthere : m.sources id ≠ none := by
        intro hmissing
        rcases hcarries with hwait | ⟨-, hheld⟩
        · exact hnot ⟨by rw [hwait]; nofun, hmissing⟩
        · rw [hmissing] at hheld
          cases hheld
      exact hearlier hsignature (hkeeps nofun fun _ _ => hthere)
  | addSource other initial =>
    have hsame : signatureOf m' id = signatureOf m id := by
      dsimp only [SourceMap.step] at hstep
      split at hstep
      · cases hstep
        rfl
      · cases hstep
    exact hearlier (hsame.symm.trans hsignature) (hkeeps nofun nofun)
  | dispose => exact absurd rfl hend

/-- The invariant of all runs. -/
theorem run_invariant {start : SourceMap Feature} (hinit : (sourceSystem stringify).init start)
    {events : List (SourceEvent Feature)}
    (hrun : (sourceSystem stringify).run start events = some m) :
    Armed m ∧ Remembers stringify events m := by
  induction events using List.reverseRecOn generalizing m with
  | nil =>
    obtain ⟨sources, rfl⟩ := hinit
    cases hrun
    exact ⟨armed_new sources, nofun⟩
  | append_singleton events event ih =>
    obtain ⟨before, hbefore, hlast⟩ := TSys.run_append_eq_some.mp hrun
    obtain ⟨after, hstep, hnil⟩ := TSys.run_cons_eq_some.mp hlast
    cases hnil
    obtain ⟨harmed, hremembers⟩ := ih hbefore
    exact ⟨harmed.step stringify hstep, hremembers.step stringify harmed hstep⟩

/-! ## The fate of a call -/

/-- Equal signatures of calls for a source mean equal data. -/
def Faithful (events : List (SourceEvent Feature)) : Prop :=
  ∀ id data signature data' signature', .setSourceData id data signature ∈ events →
    .setSourceData id data' signature' ∈ events →
    nextSignature stringify data signature = nextSignature stringify data' signature' → data = data'

theorem Faithful.of_subset {events earlier : List (SourceEvent Feature)}
    (h : Faithful stringify events) (hsub : earlier ⊆ events) : Faithful stringify earlier :=
  fun id data signature data' signature' hmem hmem' =>
    h id data signature data' signature' (hsub hmem) (hsub hmem')

/-- A skipped call offers what its source carries. -/
theorem carries_of_skipped {history : List (SourceEvent Feature)}
    (hremembers : Remembers stringify history m) (hlive : m.disposed = false)
    {signature : Option String}
    (hfaithful : Faithful stringify (history ++ [.setSourceData sourceID data signature]))
    (hskipped : (m.setSourceData stringify sourceID data signature).2 = .skipped) :
    Carries m sourceID data := by
  obtain ⟨-, -, hcall⟩ := setSourceData_spec stringify hlive sourceID data signature
  rcases hcall with ⟨-, hsame, -⟩ | ⟨hqueued, -⟩
  · obtain ⟨old, given, hmem, hnext, hcarries⟩ := hremembers sourceID _ hsame
    have heq : old = data := hfaithful sourceID old given data signature
      (List.mem_append_left _ hmem) (by simp) hnext
    exact heq ▸ hcarries
  · rw [hqueued] at hskipped
    cases hskipped

/-- After a call its source carries the offered data, and their signature is remembered. -/
theorem carries_of_call {history : List (SourceEvent Feature)}
    (hremembers : Remembers stringify history m) (hlive : m.disposed = false)
    {signature : Option String}
    (hfaithful : Faithful stringify (history ++ [.setSourceData sourceID data signature]))
    (hstep : m.step stringify (.setSourceData sourceID data signature) = some m') :
    Carries m' sourceID data ∧
      signatureOf m' sourceID = some (nextSignature stringify data signature) := by
  cases hstep
  obtain ⟨-, hsources, hcall⟩ := setSourceData_spec stringify hlive sourceID data signature
  rcases hcall with ⟨hskipped, hsame, hpending, hsignature⟩ | ⟨-, -, hpending, hsignature⟩
  · have hcarries := carries_of_skipped stringify hremembers hlive hfaithful hskipped
    unfold Carries
    rw [hpending, hsources, hsignature]
    exact ⟨hcarries, hsame⟩
  · refine ⟨.inl ?_, ?_⟩
    · rw [hpending, if_pos rfl]
    · rw [hsignature, if_pos rfl]

/-- An event that offers data to a source. -/
def Offers (sourceID : String) (event : SourceEvent Feature) : Prop :=
  ∃ data signature, event = .setSourceData sourceID data signature

/-- What other events leave of a source for which nothing waits. -/
theorem step_of_pending_none {event : SourceEvent Feature}
    (hother : ¬Offers sourceID event) (hstep : m.step stringify event = some m')
    (hnone : pendingData m sourceID = none) :
    pendingData m' sourceID = none ∧
      (m.sources sourceID ≠ none → m'.sources sourceID = m.sources sourceID) ∧
      (signatureOf m sourceID = none → signatureOf m' sourceID = none) := by
  cases event with
  | setSourceData id other signature =>
    have hne : id ≠ sourceID := by
      rintro rfl
      exact hother ⟨other, signature, rfl⟩
    cases hstep
    cases hdisposed : m.disposed with
    | true =>
      unfold SourceMap.setSourceData
      rw [if_pos hdisposed]
      exact ⟨hnone, fun _ => rfl, fun h => h⟩
    | false =>
      obtain ⟨-, hsources, hcall⟩ := setSourceData_spec stringify hdisposed id other signature
      rw [hsources]
      rcases hcall with ⟨-, -, hpending, hsignature⟩ | ⟨-, -, hpending, hsignature⟩
      · rw [hpending, hsignature]
        exact ⟨hnone, fun _ => rfl, fun h => h⟩
      · rw [hpending, hsignature, if_neg hne, if_neg hne]
        exact ⟨hnone, fun _ => rfl, fun h => h⟩
  | frame handle =>
    cases hdisposed : m.disposed with
    | true =>
      dsimp only [SourceMap.step] at hstep
      split at hstep
      · cases hstep
        have hsame : (m.takeFrame handle).flush = m.takeFrame handle := if_pos hdisposed
        rw [hsame]
        exact ⟨hnone, fun _ => rfl, fun h => h⟩
      · cases hstep
    | false =>
      obtain ⟨hsources, hsignature, hpending⟩ :=
        step_frame stringify hdisposed hstep sourceID
      refine ⟨hpending, fun _ => ?_, fun h => ?_⟩
      · rw [hsources, hnone]
        exact Option.map_id'
      · rw [hsignature, h]
        split <;> rfl
  | addSource id initial =>
    dsimp only [SourceMap.step] at hstep
    split at hstep
    · rename_i hmissing
      cases hstep
      refine ⟨hnone, fun hthere => ?_, fun h => h⟩
      have hne : sourceID ≠ id := by
        rintro rfl
        exact hthere hmissing
      exact Function.update_of_ne hne _ _
    · cases hstep
  | dispose =>
    cases hstep
    obtain ⟨-, hqueue, hsources, -⟩ := disposeSourceDataQueue_fields m
    refine ⟨?_, fun _ => congrFun hsources _, fun _ => ?_⟩
    · rw [pendingData, hqueue]
      rfl
    · rw [signatureOf, hqueue]
      rfl

/-- What holds of the source of a call when the next frame comes. -/
theorem carries_until_frame {start : SourceMap Feature}
    (hinit : (sourceSystem stringify).init start) {before mid : List (SourceEvent Feature)}
    {signature : Option String}
    (hfaithful : Faithful stringify (before ++ [.setSourceData sourceID data signature]))
    (hmid : ∀ event ∈ mid, ¬Offers sourceID event ∧ ∀ handle, event ≠ .frame handle)
    (hrun : (sourceSystem stringify).run start
      (before ++ .setSourceData sourceID data signature :: mid) = some m)
    (hlive : m.disposed = false) :
    Carries m sourceID data ∧
      signatureOf m sourceID = some (nextSignature stringify data signature) := by
  obtain ⟨first, hbefore, hrest⟩ := TSys.run_append_eq_some.mp hrun
  obtain ⟨called, hcall, hlater⟩ := TSys.run_cons_eq_some.mp hrest
  have hcall : first.step stringify (.setSourceData sourceID data signature) = some called := hcall
  obtain ⟨harmed, hremembers⟩ := run_invariant stringify hinit hbefore
  -- as long as the map is not disposed of, what was offered stays carried
  have hkeeps := TSys.run_keeps
    (P := fun m : SourceMap Feature => Armed m ∧ (m.disposed = false →
      Carries m sourceID data ∧
        signatureOf m sourceID = some (nextSignature stringify data signature)))
    (fun s event hevent t hs hstep => by
      refine ⟨hs.1.step stringify hstep, fun hlive' => ?_⟩
      obtain ⟨hlive, hend⟩ := live_of_step stringify hstep hlive'
      obtain ⟨hcarries, hsignature⟩ := hs.2 hlive
      obtain ⟨hkept, hsame⟩ := hcarries.step stringify hstep
        (fun other given heq => (hmid event hevent).1 ⟨other, given, heq⟩) hlive hend
        fun handle heq => absurd heq ((hmid event hevent).2 handle)
      exact ⟨hkept, hsame.trans hsignature⟩)
    ⟨harmed.step stringify hcall, fun hlive' => carries_of_call stringify hremembers
      (live_of_step stringify hcall hlive').1 hfaithful hcall⟩ hlater
  exact hkeeps.2 hlive

/-- The map sources converge to the latest data. In every run whose signatures mean their data:
at most one frame is armed; a source that is there at the flush after its latest call holds the
data of that call from then on, and if it is not there, the call is not skipped when it is made
again; a call is skipped only if its source holds or is about to receive its data; and a map that
is disposed of is not written to. -/
theorem sources_converge {start : SourceMap Feature} (hinit : (sourceSystem stringify).init start)
    {events : List (SourceEvent Feature)} (hfaithful : Faithful stringify events)
    {m : SourceMap Feature} (hrun : (sourceSystem stringify).run start events = some m) :
    m.armed.length ≤ 1 ∧
    (∀ before sourceID data signature mid handle after flushed,
      events = before ++ .setSourceData sourceID data signature :: mid ++ .frame handle :: after →
      (∀ event ∈ mid, ¬Offers sourceID event ∧ ∀ other, event ≠ .frame other) →
      (∀ event ∈ after, ¬Offers sourceID event) →
      (sourceSystem stringify).run start (before ++ .setSourceData sourceID data signature :: mid) =
        some flushed →
      handle ∈ flushed.armed →
      (flushed.sources sourceID ≠ none → m.sources sourceID = some data) ∧
      (flushed.sources sourceID = none → m.disposed = false →
        (m.setSourceData stringify sourceID data signature).2 = .queued)) ∧
    (∀ before sourceID data signature after called,
      events = before ++ .setSourceData sourceID data signature :: after →
      (sourceSystem stringify).run start before = some called →
      (called.setSourceData stringify sourceID data signature).2 = .skipped →
      Carries called sourceID data) ∧
    ∀ before after disposed, events = before ++ .dispose :: after →
      (sourceSystem stringify).run start before = some disposed → m.writes = disposed.writes := by
  refine ⟨?_, ?_, ?_, ?_⟩
  · have harmed := (run_invariant stringify hinit hrun).1.armed_eq
    rw [harmed]
    split
    · exact Nat.zero_le 1
    · split
      · exact Nat.zero_le 1
      · exact Nat.le_refl 1
  · rintro before sourceID data signature mid handle after flushed rfl hmid hafter hflushed harmed
    rw [TSys.run_append, hflushed, Option.bind_some] at hrun
    obtain ⟨framed, hframe, hlater⟩ := TSys.run_cons_eq_some.mp hrun
    have hframe : flushed.step stringify (.frame handle) = some framed := hframe
    obtain ⟨hinv, -⟩ := run_invariant stringify hinit hflushed
    have hlive : flushed.disposed = false := by
      by_contra hdisposed
      rw [hinv.armed_eq, hinv.disposed (by simpa using hdisposed)] at harmed
      cases harmed
    have hearlier : Faithful stringify (before ++ [.setSourceData sourceID data signature]) := by
      refine hfaithful.of_subset stringify fun event hevent => ?_
      rw [List.mem_append, List.mem_singleton] at hevent
      rw [List.append_assoc, List.cons_append, List.mem_append, List.mem_cons]
      exact hevent.imp_right .inl
    obtain ⟨hcarries, -⟩ :=
      carries_until_frame stringify hinit hearlier hmid hflushed hlive
    obtain ⟨hsources, hsignature, hpending⟩ :=
      step_frame stringify hlive hframe sourceID
    -- nothing waits for the source from here on
    have hkeeps := TSys.run_keeps
      (P := fun s : SourceMap Feature => Armed s ∧ pendingData s sourceID = none ∧
        (framed.sources sourceID ≠ none → s.sources sourceID = framed.sources sourceID) ∧
        (signatureOf framed sourceID = none → signatureOf s sourceID = none))
      (fun s event hevent t hs hstep => by
        obtain ⟨hs, hnone, hsource, hforgotten⟩ := hs
        obtain ⟨hnone', hsource', hforgotten'⟩ :=
          step_of_pending_none stringify (hafter event hevent) hstep hnone
        refine ⟨hs.step stringify hstep, hnone', fun hthere => ?_,
          fun h => hforgotten' (hforgotten h)⟩
        rw [hsource' (by rw [hsource hthere]; exact hthere), hsource hthere])
      ⟨hinv.step stringify hframe, hpending, fun _ => rfl, fun h => h⟩ hlater
    obtain ⟨-, hnone, hheld, hforgotten⟩ := hkeeps
    constructor
    · intro hthere
      have hdelivered : framed.sources sourceID = some data := by
        obtain ⟨old, hold⟩ := Option.ne_none_iff_exists'.mp hthere
        rw [hsources, hold]
        rcases hcarries with hwait | ⟨hidle, hhas⟩
        · rw [hwait]
          rfl
        · rw [hidle]
          exact hold.symm.trans hhas
      rw [hheld (by rw [hdelivered]; nofun), hdelivered]
    · intro hmissing hlive'
      have hwaits : pendingData flushed sourceID ≠ none := by
        rcases hcarries with hwait | ⟨-, hhas⟩
        · rw [hwait]
          nofun
        · rw [hmissing] at hhas
          cases hhas
      have hgone := hforgotten (by rw [hsignature, if_pos ⟨hwaits, hmissing⟩])
      obtain ⟨-, -, hcall⟩ := setSourceData_spec stringify hlive' sourceID data signature
      rcases hcall with ⟨-, hsame, -⟩ | ⟨hqueued, -⟩
      · rw [hgone] at hsame
        cases hsame
      · exact hqueued
  · rintro before sourceID data signature after called rfl hcalled hskipped
    obtain ⟨-, hremembers⟩ := run_invariant stringify hinit hcalled
    have hlive : called.disposed = false := by
      by_contra hdisposed
      rw [SourceMap.setSourceData, if_pos (by simpa using hdisposed)] at hskipped
      cases hskipped
    refine carries_of_skipped stringify hremembers hlive ?_ hskipped
    refine hfaithful.of_subset stringify fun event hevent => ?_
    rw [List.mem_append, List.mem_singleton] at hevent
    rw [List.mem_append, List.mem_cons]
    exact hevent.imp_right .inl
  · rintro before after disposed rfl hbefore
    rw [TSys.run_append, hbefore, Option.bind_some] at hrun
    obtain ⟨ended, hend, hlater⟩ := TSys.run_cons_eq_some.mp hrun
    cases hend
    obtain ⟨hdisposed, -, -, hwrites⟩ := disposeSourceDataQueue_fields disposed
    exact (TSys.run_keeps
      (P := fun s : SourceMap Feature => s.disposed = true ∧ s.writes = disposed.writes)
      (fun s event _ t hs hstep => by
        obtain ⟨hdisposed', hsame⟩ := step_of_disposed stringify hs.1 hstep
        exact ⟨hdisposed', hsame.trans hs.2⟩) ⟨hdisposed, hwrites⟩ hlater).2

/-- A source that gets the data of a call at the next frame. -/
theorem routes_converge : ∃ m, (sourceSystem fun _ : FeatureCollection Nat => []).run
      (.new fun id => if id = "routes" then some ⟨[]⟩ else none)
      [.setSourceData "routes" ⟨[7]⟩ (some "1"), .frame 1] = some m ∧
    m.sources "routes" = some ⟨[7]⟩ := by
  refine ⟨_, rfl, ?_⟩
  have hfaithful : Faithful (fun _ : FeatureCollection Nat => [])
      [.setSourceData "routes" ⟨[7]⟩ (some "1"), .frame 1] := by
    intro id data signature data' signature' h h' _
    simp only [List.mem_cons, List.not_mem_nil, reduceCtorEq, or_false,
      SourceEvent.setSourceData.injEq] at h h'
    exact h.2.1.trans h'.2.1.symm
  have hinit : (sourceSystem fun _ : FeatureCollection Nat => []).init
      (.new fun id => if id = "routes" then some ⟨[]⟩ else none) := ⟨_, rfl⟩
  have hconverges := (sources_converge _ hinit hfaithful rfl).2.1 [] "routes" ⟨[7]⟩ (some "1") []
    1 [] _ rfl nofun nofun rfl
  exact (hconverges (by decide)).1 (by decide)

end CartoLive.Theorems.SourceConvergence
