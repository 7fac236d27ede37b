import CartoLive.Lib.Journaled
import CartoLive.Lib.TSys
import CartoLive.Live.CacheVersions

/-!
# Runs of the cache

The three lists of the cache, with all that an item carries, are journaled lists:
`Listed` says where a list stands, `Lawful` what the cache does to it. From
`Lawful` a run of live updates is a run of the journaled list (`Lawful.run`).
-/

namespace CartoLive.Live

open CartoLive.Lib

/-! ## The public operations -/

/-- A live update of the cache. -/
inductive CacheOp
  | apply (now : Int) (data : PublicData)
  | setPacketCount (count : Int)

inductive CacheAct
  | live (op : CacheOp)
  | recordExcludedIATA (iata : String)
  /-- `Replace` and `ReplacePreservingMutations`. -/
  | replace (now : Int) (state : PublicLiveState) (excluded : Counter)
      (expectedGeneration : Option Nat)

namespace PublicStateCache

def applyOp (c : PublicStateCache) : CacheOp → PublicStateCache
  | .apply now data => c.apply now data
  | .setPacketCount count => c.setPacketCount count

def applyOps (c : PublicStateCache) (ops : List CacheOp) : PublicStateCache :=
  ops.foldl applyOp c

theorem applyOps_concat (c : PublicStateCache) (ops : List CacheOp) (op : CacheOp) :
    c.applyOps (ops ++ [op]) = (c.applyOps ops).applyOp op := by
  simp [applyOps, List.foldl_append]

end PublicStateCache

/-- The caches that any calls can lead to. -/
def cacheSystem (filter : PublicIATAFilter) : TSys PublicStateCache CacheAct where
  init c := c = newPublicStateCache filter
  step c
    | .live op => some (c.applyOp op)
    | .recordExcludedIATA iata => some (c.recordExcludedIATA iata)
    | .replace now state excluded expectedGeneration =>
      some (c.replace now state excluded expectedGeneration)

/-! ## Bounds -/

/-- Journals do not run ahead of the generation, and lists keep their limits. -/
structure CacheBounds (c : PublicStateCache) : Prop where
  journal : ∀ k key, c.journal k key ≤ c.mutationGeneration
  packetCount : c.packetCountMutation ≤ c.mutationGeneration
  length : ∀ k, (c.state.versions k).length ≤ k.limit

variable {c : PublicStateCache}

theorem packetCountMutation_apply (c : PublicStateCache) (now : Int) (data : PublicData) :
    (c.apply now data).packetCountMutation = c.packetCountMutation := by
  cases hready : c.ready with
  | false => rw [PublicStateCache.apply_not_ready hready]
  | true =>
    cases data <;>
      simp only [PublicStateCache.apply, PublicStateCache.applyNode,
        PublicStateCache.applyActivity, PublicStateCache.applyRoutePulse, hready, Bool.not_true,
        Bool.false_eq_true, if_false, PublicStateCache.recordLiveUpdateLocked] <;>
      split <;> rfl

theorem CacheBounds.apply (h : CacheBounds c) (now : Int) (data : PublicData) :
    CacheBounds (c.apply now data) := by
  cases hready : c.ready with
  | false =>
    rw [PublicStateCache.apply_not_ready hready]
    exact h
  | true =>
    have happlied := PublicStateCache.apply_applied hready now data
    refine
      { journal := happlied.journal_le h.journal
        packetCount := ?_
        length := fun k => ?_ }
    · rw [packetCountMutation_apply, happlied.generation]
      exact Nat.le_succ_of_le h.packetCount
    · by_cases hk : k = data.kind
      · subst hk
        rw [happlied.versions]
        exact List.length_take_le ..
      · rw [happlied.versions_other k hk]
        exact h.length k

theorem CacheBounds.applyOp (h : CacheBounds c) (op : CacheOp) : CacheBounds (c.applyOp op) := by
  cases op with
  | apply now data => exact h.apply now data
  | setPacketCount count =>
    show CacheBounds (c.setPacketCount count)
    have hquiet := PublicStateCache.setPacketCount_quiet c count
    refine
      { journal := fun k key => ?_
        packetCount := ?_
        length := fun k => by rw [hquiet.versions]; exact h.length k }
    · rw [hquiet.journal]
      exact (h.journal k key).trans hquiet.generation
    · unfold PublicStateCache.setPacketCount
      split
      · exact h.packetCount
      · exact le_refl _

/-- Every cache that calls lead to is within the bounds. -/
theorem cacheBounds (filter : PublicIATAFilter) :
    (cacheSystem filter).InductiveOn (fun _ _ => True) CacheBounds where
  init s hs := by
    rw [hs]
    exact
      { journal := fun k key => by cases k <;> exact le_refl _
        packetCount := le_refl _
        length := fun k => by cases k <;> exact Nat.zero_le _ }
  step c act c' h _ hstep := by
    cases act with
    | live op =>
      cases hstep
      exact h.applyOp op
    | recordExcludedIATA iata =>
      cases hstep
      exact
        { journal := fun k key => by
            rw [(PublicStateCache.recordExcludedIATA_quiet c iata).journal]
            exact h.journal k key
          packetCount := h.packetCount
          length := h.length }
    | replace now state excluded expectedGeneration =>
      cases hstep
      exact
        { journal := fun k key => by rw [PublicStateCache.journal_replace]; exact Nat.zero_le _
          packetCount := Nat.zero_le _
          length := fun k => by
            rw [PublicStateCache.versions_replace]
            exact List.length_take_le .. }

/-! ## The lists -/

/-- One of the lists of the cache. -/
structure Listed (α : Type) where
  view : View α String
  kind : Kind
  /-- Whether an update drops the older items of its identifier. -/
  unique : Bool
  items : PublicLiveState → List α
  ofData : PublicData → Option α

def nodeList : Listed PublicNode :=
  { view := nodeView, kind := .node, unique := true, items := PublicLiveState.nodes
    ofData := fun
      | .node item => some item
      | _ => none }

def activityList : Listed PublicActivity :=
  { view := activityView, kind := .activity, unique := false
    items := PublicLiveState.recentActivity
    ofData := fun
      | .activity item => some item
      | _ => none }

def pulseList : Listed PublicRoutePulse :=
  { view := pulseView, kind := .pulse, unique := false, items := PublicLiveState.recentPulses
    ofData := fun
      | .pulse item => some item
      | _ => none }

namespace Listed

variable {α : Type} (L : Listed α)

def cached (c : PublicStateCache) : Journaled α String :=
  { items := L.items c.state, journal := c.journal L.kind }

/-- What the cache does to a list. -/
structure Lawful : Prop where
  applied : ∀ (c : PublicStateCache) (now : Int) (data : PublicData) (item : α),
    c.ready = true → L.ofData data = some item →
    L.cached (c.apply now data) =
      (L.cached c).push L.view.key L.kind.limit L.unique item (c.mutationGeneration + 1)
  other : ∀ (c : PublicStateCache) (now : Int) (data : PublicData), c.ready = true →
    L.ofData data = none → L.cached (c.apply now data) = L.cached c
  setPacketCount : ∀ (c : PublicStateCache) (count : Int),
    L.cached (c.setPacketCount count) = L.cached c
  length : ∀ state : PublicLiveState, (L.items state).length = (state.versions L.kind).length
  merged : ∀ (c : PublicStateCache) (fresh : PublicLiveState) (g : Nat) (x : α),
    x ∈ L.items (c.mergeMutationsAfterLocked fresh g) ↔
      x ∈ L.view.merge (L.items fresh)
        ((L.items c.state).filter fun y => g < c.journal L.kind (L.view.key y))
  replaced : ∀ (c : PublicStateCache) (now : Int) (fresh : PublicLiveState) (excluded : Counter)
    (expectedGeneration : Option Nat),
    L.items (c.replace now fresh excluded expectedGeneration).state =
      (L.items (c.replacement fresh expectedGeneration)).take L.kind.limit

/-- A live update does not change the other lists. -/
theorem cached_recordLiveUpdateLocked (hitems : ∀ (state : PublicLiveState) (now : Int),
    L.items { state with updatedAt := now } = L.items state) (c : PublicStateCache) (now : Int) :
    L.cached (c.recordLiveUpdateLocked now) = L.cached c := by
  have hjournal := PublicStateCache.recordLiveUpdateLocked_journal c now L.kind
  have hstate : L.items (c.recordLiveUpdateLocked now).state = L.items c.state := by
    unfold PublicStateCache.recordLiveUpdateLocked
    dsimp only
    split <;> exact hitems c.state now
  unfold cached
  rw [hjournal, hstate]

end Listed

@[simp] theorem nodes_advanceServerTime (state : PublicLiveState) (heardAt : Int) :
    (PublicStateCache.advanceServerTime state heardAt).nodes = state.nodes := by
  unfold PublicStateCache.advanceServerTime
  split <;> rfl

@[simp] theorem recentActivity_advanceServerTime (state : PublicLiveState) (heardAt : Int) :
    (PublicStateCache.advanceServerTime state heardAt).recentActivity = state.recentActivity := by
  unfold PublicStateCache.advanceServerTime
  split <;> rfl

@[simp] theorem recentPulses_advanceServerTime (state : PublicLiveState) (heardAt : Int) :
    (PublicStateCache.advanceServerTime state heardAt).recentPulses = state.recentPulses := by
  unfold PublicStateCache.advanceServerTime
  split <;> rfl

theorem lawful_nodeList : nodeList.Lawful where
  applied c now data item hready hdata := by
    cases data with
    | node node =>
      cases hdata
      simp only [PublicStateCache.apply, PublicStateCache.applyNode, hready, Bool.not_true,
        Bool.false_eq_true, if_false]
      rw [nodeList.cached_recordLiveUpdateLocked fun _ _ => rfl]
      rfl
    | activity activity => cases hdata
    | pulse pulse => cases hdata
  other c now data hready hdata := by
    cases data with
    | node node => cases hdata
    | activity activity =>
      simp only [PublicStateCache.apply, PublicStateCache.applyActivity, hready, Bool.not_true,
        Bool.false_eq_true, if_false]
      rw [nodeList.cached_recordLiveUpdateLocked fun _ _ => rfl]
      refine congrArg₂ Journaled.mk ?_ rfl
      show (PublicStateCache.advanceServerTime _ _).nodes = _
      rw [nodes_advanceServerTime]
      rfl
    | pulse pulse =>
      simp only [PublicStateCache.apply, PublicStateCache.applyRoutePulse, hready, Bool.not_true,
        Bool.false_eq_true, if_false]
      rw [nodeList.cached_recordLiveUpdateLocked fun _ _ => rfl]
      refine congrArg₂ Journaled.mk ?_ rfl
      show (PublicStateCache.advanceServerTime _ _).nodes = _
      rw [nodes_advanceServerTime]
      rfl
  setPacketCount c count := by
    unfold PublicStateCache.setPacketCount
    split <;> rfl
  length state := (List.length_map _).symm
  merged c fresh g x := List.mem_insertionSort nodeBefore
  replaced _ _ _ _ _ := rfl

theorem lawful_activityList : activityList.Lawful where
  applied c now data item hready hdata := by
    cases data with
    | activity activity =>
      cases hdata
      simp only [PublicStateCache.apply, PublicStateCache.applyActivity, hready, Bool.not_true,
        Bool.false_eq_true, if_false]
      rw [activityList.cached_recordLiveUpdateLocked fun _ _ => rfl]
      refine congrArg₂ Journaled.mk ?_ rfl
      show (PublicStateCache.advanceServerTime _ _).recentActivity = _
      rw [recentActivity_advanceServerTime]
      rfl
    | node node => cases hdata
    | pulse pulse => cases hdata
  other c now data hready hdata := by
    cases data with
    | activity activity => cases hdata
    | node node =>
      simp only [PublicStateCache.apply, PublicStateCache.applyNode, hready, Bool.not_true,
        Bool.false_eq_true, if_false]
      rw [activityList.cached_recordLiveUpdateLocked fun _ _ => rfl]
      rfl
    | pulse pulse =>
      simp only [PublicStateCache.apply, PublicStateCache.applyRoutePulse, hready, Bool.not_true,
        Bool.false_eq_true, if_false]
      rw [activityList.cached_recordLiveUpdateLocked fun _ _ => rfl]
      refine congrArg₂ Journaled.mk ?_ rfl
      show (PublicStateCache.advanceServerTime _ _).recentActivity = _
      rw [recentActivity_advanceServerTime]
      rfl
  setPacketCount c count := by
    unfold PublicStateCache.setPacketCount
    split <;> rfl
  length state := (List.length_map _).symm
  merged c fresh g x := List.mem_insertionSort (heardBefore activityView)
  replaced _ _ _ _ _ := rfl

theorem lawful_pulseList : pulseList.Lawful where
  applied c now data item hready hdata := by
    cases data with
    | pulse pulse =>
      cases hdata
      simp only [PublicStateCache.apply, PublicStateCache.applyRoutePulse, hready, Bool.not_true,
        Bool.false_eq_true, if_false]
      rw [pulseList.cached_recordLiveUpdateLocked fun _ _ => rfl]
      refine congrArg₂ Journaled.mk ?_ rfl
      show (PublicStateCache.advanceServerTime _ _).recentPulses = _
      rw [recentPulses_advanceServerTime]
      rfl
    | node node => cases hdata
    | activity activity => cases hdata
  other c now data hready hdata := by
    cases data with
    | pulse pulse => cases hdata
    | node node =>
      simp only [PublicStateCache.apply, PublicStateCache.applyNode, hready, Bool.not_true,
        Bool.false_eq_true, if_false]
      rw [pulseList.cached_recordLiveUpdateLocked fun _ _ => rfl]
      rfl
    | activity activity =>
      simp only [PublicStateCache.apply, PublicStateCache.applyActivity, hready, Bool.not_true,
        Bool.false_eq_true, if_false]
      rw [pulseList.cached_recordLiveUpdateLocked fun _ _ => rfl]
      refine congrArg₂ Journaled.mk ?_ rfl
      show (PublicStateCache.advanceServerTime _ _).recentPulses = _
      rw [recentPulses_advanceServerTime]
      rfl
  setPacketCount c count := by
    unfold PublicStateCache.setPacketCount
    split <;> rfl
  length state := (List.length_map _).symm
  merged c fresh g x := List.mem_insertionSort (heardBefore pulseView)
  replaced _ _ _ _ _ := rfl

theorem generation_le_applyOps (hready : c.ready = true) (ops : List CacheOp) :
    (c.applyOps ops).ready = true ∧ c.mutationGeneration ≤ (c.applyOps ops).mutationGeneration := by
  induction ops using List.reverseRecOn with
  | nil => exact ⟨hready, le_refl _⟩
  | append_singleton ops op ih =>
    rw [PublicStateCache.applyOps_concat]
    cases op with
    | apply now data =>
      have happlied := PublicStateCache.apply_applied ih.1 now data
      refine ⟨happlied.ready, ih.2.trans ?_⟩
      rw [PublicStateCache.applyOp, happlied.generation]
      exact Nat.le_succ _
    | setPacketCount count =>
      have hquiet := PublicStateCache.setPacketCount_quiet (c.applyOps ops) count
      exact ⟨hquiet.ready.trans ih.1, ih.2.trans hquiet.generation⟩

namespace Listed

variable {α : Type} {L : Listed α}

def ofOp (L : Listed α) : CacheOp → Option α
  | .apply _ data => L.ofData data
  | .setPacketCount _ => none

/-- The items of a list that a run updates, newest first. -/
def updates (L : Listed α) (ops : List CacheOp) : List α := (ops.filterMap L.ofOp).reverse

/-- A run of live updates as a run of the journaled list. -/
structure RunOf (L : Listed α) (c : PublicStateCache) (ops : List CacheOp)
    (us : List (α × Nat)) : Prop where
  ready : (c.applyOps ops).ready = true
  updated : Journaled.updated us = L.updates ops
  times : ∀ u ∈ us, c.mutationGeneration < u.2 ∧ u.2 ≤ (c.applyOps ops).mutationGeneration
  cached : L.cached (c.applyOps ops) =
    (L.cached c).run L.view.key L.kind.limit L.unique us

theorem Lawful.run (hL : L.Lawful) (hready : c.ready = true) (ops : List CacheOp) :
    ∃ us, L.RunOf c ops us := by
  induction ops using List.reverseRecOn with
  | nil => exact ⟨[], { ready := hready, updated := rfl, times := by simp, cached := rfl }⟩
  | append_singleton ops op ih =>
    obtain ⟨us, ih⟩ := ih
    cases op with
    | setPacketCount count =>
      have hquiet := PublicStateCache.setPacketCount_quiet (c.applyOps ops) count
      refine ⟨us, ?_⟩
      refine { ready := ?_, updated := ?_, times := ?_, cached := ?_ }
      · rw [PublicStateCache.applyOps_concat]
        exact hquiet.ready.trans ih.ready
      · rw [ih.updated]
        simp [updates, ofOp]
      · intro u hu
        rw [PublicStateCache.applyOps_concat]
        exact ⟨(ih.times u hu).1, (ih.times u hu).2.trans hquiet.generation⟩
      · rw [PublicStateCache.applyOps_concat, ← ih.cached]
        exact hL.setPacketCount _ count
    | apply now data =>
      have happlied := PublicStateCache.apply_applied ih.ready now data
      have hgeneration : (c.applyOps (ops ++ [.apply now data])).mutationGeneration =
          (c.applyOps ops).mutationGeneration + 1 := by
        rw [PublicStateCache.applyOps_concat]
        exact happlied.generation
      have hready' : (c.applyOps (ops ++ [.apply now data])).ready = true := by
        rw [PublicStateCache.applyOps_concat]
        exact happlied.ready
      have htimes : ∀ u ∈ us, c.mutationGeneration < u.2 ∧
          u.2 ≤ (c.applyOps (ops ++ [.apply now data])).mutationGeneration := by
        intro u hu
        rw [hgeneration]
        exact ⟨(ih.times u hu).1, Nat.le_succ_of_le (ih.times u hu).2⟩
      cases hdata : L.ofData data with
      | none =>
        refine ⟨us, { ready := hready', updated := ?_, times := htimes, cached := ?_ }⟩
        · rw [ih.updated]
          simp [updates, ofOp, hdata]
        · rw [PublicStateCache.applyOps_concat, ← ih.cached]
          exact hL.other _ now data ih.ready hdata
      | some item =>
        refine ⟨us ++ [(item, (c.applyOps ops).mutationGeneration + 1)],
          { ready := hready', updated := ?_, times := ?_, cached := ?_ }⟩
        · rw [Journaled.updated_concat, ih.updated]
          simp [updates, ofOp, hdata]
        · intro u hu
          rcases List.mem_append.mp hu with hu | hu
          · exact htimes u hu
          · rw [List.mem_singleton.mp hu, hgeneration]
            refine ⟨Nat.lt_succ_of_le ?_, le_refl _⟩
            exact (generation_le_applyOps hready ops).2
        · rw [PublicStateCache.applyOps_concat, Journaled.run_concat, ← ih.cached]
          exact hL.applied _ now data item ih.ready hdata

end Listed

end CartoLive.Live
