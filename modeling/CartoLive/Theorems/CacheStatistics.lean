import CartoLive.Live.CacheRuns
import Mathlib.Data.List.Count

/-!
# The statistics of the cache

The statistics that a cache serves describe the lists that it serves as long as no
replacement is cut to the limits: `replace` cuts the lists after their statistics have
been computed, the live updates before.
-/

namespace CartoLive.Theorems.CacheStatistics

open CartoLive.Lib CartoLive.Live

/-! ## Counters -/

/-- What a counter reads; a missing key reads as zero. -/
def read (counter : Counter) (key : String) : Int :=
  ((counter.find? fun entry => entry.1 = key).map Prod.snd).getD 0

/-- What nested counters read. -/
def readNested (counters : List (String × Counter)) (iata bucket : String) : Int :=
  read (((counters.find? fun entry => entry.1 = iata).map Prod.snd).getD []) bucket

/-- The labels under which `PublicResolutionCounters` counts an item. -/
def labels (item : PublicActivity) : String × String :=
  (if Go.upperTrim item.iata = "" then "UNKNOWN" else Go.upperTrim item.iata,
    if Go.trimSpace item.resolutionBucket = "" then publicBucketUnresolved
    else Go.trimSpace item.resolutionBucket)

theorem read_bump (counter : Counter) (key key' : String) (n : Int) :
    read (counter.bump key n) key' = read counter key' + if key' = key then n else 0 := by
  induction counter with
  | nil =>
    by_cases h : key' = key
    · simp [read, Counter.bump, h]
    · simp [read, Counter.bump, h, Ne.symm h]
  | cons entry rest ih =>
    obtain ⟨k, value⟩ := entry
    unfold Counter.bump
    by_cases hk : k = key
    · subst hk
      by_cases h : k = key'
      · simp [read, h]
      · simp [read, h, Ne.symm h]
    · rw [if_neg hk]
      by_cases h : k = key'
      · subst h
        simp [read, hk]
      · have hrest : ∀ tail : Counter, read ((k, value) :: tail) key' = read tail key' := fun tail => by
          simp [read, h]
        rw [hrest, hrest, ih]

theorem readNested_bumpNested (counters : List (String × Counter)) (iata bucket : String)
    (iata' bucket' : String) :
    readNested (bumpNested counters iata bucket) iata' bucket' =
      readNested counters iata' bucket' + if (iata', bucket') = (iata, bucket) then 1 else 0 := by
  induction counters with
  | nil =>
    by_cases h : iata' = iata
    · by_cases hb : bucket' = bucket
      · simp [readNested, bumpNested, read, h, hb]
      · simp [readNested, bumpNested, read, h, hb, Ne.symm hb]
    · simp [readNested, bumpNested, read, h, Ne.symm h]
  | cons entry rest ih =>
    obtain ⟨k, counter⟩ := entry
    unfold bumpNested
    by_cases hk : k = iata
    · subst hk
      by_cases h : k = iata'
      · subst h
        simp [readNested, read_bump]
      · simp [readNested, h, Ne.symm h]
    · rw [if_neg hk]
      by_cases h : k = iata'
      · subst h
        simp [readNested, hk]
      · have hrest : ∀ tail : List (String × Counter),
            readNested ((k, counter) :: tail) iata' bucket' = readNested tail iata' bucket' :=
          fun tail => by simp [readNested, h]
        rw [hrest, hrest, ih]

/-- The counters count the items of each pair of labels. -/
theorem readNested_publicResolutionCounters (activity : List PublicActivity) (iata bucket : String) :
    readNested (publicResolutionCounters activity) iata bucket =
      activity.countP fun item => labels item = (iata, bucket) := by
  induction activity using List.reverseRecOn with
  | nil => rfl
  | append_singleton activity item ih =>
    have hstep : publicResolutionCounters (activity ++ [item]) =
        bumpNested (publicResolutionCounters activity) (labels item).1 (labels item).2 := by
      unfold publicResolutionCounters
      rw [List.foldl_append]
      simp only [List.foldl_cons, List.foldl_nil, labels]
    rw [hstep, readNested_bumpNested, ih, List.countP_append, List.countP_singleton]
    generalize labels item = label
    obtain ⟨iata', bucket'⟩ := label
    by_cases h : (iata', bucket') = (iata, bucket)
    · rw [if_pos h.symm, if_pos (decide_eq_true h), Nat.cast_add, Nat.cast_one]
    · rw [if_neg (Ne.symm h), if_neg (by simpa using h), Nat.cast_add, Nat.cast_zero]

/-- The counters of the first items are those of all where there are no others. -/
theorem counters_take_iff (activity : List PublicActivity) (limit : Nat) :
    (∀ iata bucket, readNested (publicResolutionCounters activity) iata bucket =
      readNested (publicResolutionCounters (activity.take limit)) iata bucket) ↔
        activity.length ≤ limit := by
  constructor
  · intro h
    by_contra hlong
    have hdrop : activity.drop limit ≠ [] := fun hnil => hlong (List.drop_eq_nil_iff.mp hnil)
    obtain ⟨item, hitem⟩ := List.exists_mem_of_ne_nil _ hdrop
    have hread := h (labels item).1 (labels item).2
    rw [readNested_publicResolutionCounters, readNested_publicResolutionCounters] at hread
    nth_rewrite 1 [← List.take_append_drop limit activity] at hread
    rw [List.countP_append] at hread
    have hcounted : 0 < (activity.drop limit).countP
        fun other => labels other = ((labels item).1, (labels item).2) :=
      List.countP_pos_iff.mpr ⟨item, hitem, by simp⟩
    omega
  · intro h iata bucket
    rw [List.take_of_length_le h]

/-! ## Statistics -/

/-- The statistics are those of the lists. -/
structure StatsMatch (state : PublicLiveState) : Prop where
  activeNodes : state.stats.activeNodes = state.nodes.length
  activeRoutes : state.stats.activeRoutes = state.routes.length
  resolutionBuckets : ∀ iata bucket, readNested state.stats.resolutionBuckets iata bucket =
    readNested (publicResolutionCounters state.recentActivity) iata bucket

/-- How many items a replacement has of a list before it is cut: those of the state, and where the
cache has changed since the generation, one for each identifier of these and of the items of the
cache that have changed. -/
def installed {α : Type} (c : PublicStateCache) (expectedGeneration : Option Nat) (id : α → String)
    (items : List α) (changed : Nat → List α) : Nat :=
  match expectedGeneration with
  | some generation =>
    if c.ready = true ∧ c.mutationGeneration ≠ generation then
      ((items ++ changed generation).map id).dedup.length
    else items.length
  | none => items.length

/-- The lists of a replacement are within the limits of the cache. -/
structure Fits (c : PublicStateCache) (state : PublicLiveState) (expectedGeneration : Option Nat) :
    Prop where
  nodes : installed c expectedGeneration PublicNode.id state.nodes c.nodesAfter ≤ publicCacheMaxNodes
  routes : state.routes.length ≤ publicCacheMaxRoutes
  activity : installed c expectedGeneration PublicActivity.id state.recentActivity c.activityAfter ≤
    publicCacheMaxActivity

variable {c : PublicStateCache} {state : PublicLiveState} {expectedGeneration : Option Nat}

theorem length_nodes_replacement : (c.replacement state expectedGeneration).nodes.length =
    installed c expectedGeneration PublicNode.id state.nodes c.nodesAfter := by
  cases expectedGeneration with
  | none => rfl
  | some generation =>
    unfold PublicStateCache.replacement installed
    dsimp only
    split
    · show (mergeConcurrentPublicNodes state.nodes (c.nodesAfter generation)).length = _
      rw [mergeConcurrentPublicNodes, List.length_insertionSort]
      exact View.length_merge _ _
    · rfl

theorem length_activity_replacement :
    (c.replacement state expectedGeneration).recentActivity.length =
      installed c expectedGeneration PublicActivity.id state.recentActivity c.activityAfter := by
  cases expectedGeneration with
  | none => rfl
  | some generation =>
    unfold PublicStateCache.replacement installed
    dsimp only
    split
    · show (mergeConcurrentPublicActivity state.recentActivity
        (c.activityAfter generation)).length = _
      rw [mergeConcurrentPublicActivity, List.length_insertionSort]
      exact View.length_merge _ _
    · rfl

theorem routes_replacement : (c.replacement state expectedGeneration).routes = state.routes := by
  cases expectedGeneration with
  | none => rfl
  | some generation =>
    unfold PublicStateCache.replacement
    dsimp only
    split <;> rfl

/-- The overlay computes the statistics of the lists it merges. -/
theorem statsMatch_replacement (h : StatsMatch state) :
    StatsMatch (c.replacement state expectedGeneration) := by
  cases expectedGeneration with
  | none => exact h
  | some generation =>
    unfold PublicStateCache.replacement
    dsimp only
    split
    · exact ⟨rfl, rfl, fun _ _ => rfl⟩
    · exact h

/-- A replacement of a state whose statistics are right keeps them right iff nothing is cut. -/
theorem statsMatch_replace_iff (h : StatsMatch state) (now : Int) (excluded : Counter) :
    StatsMatch (c.replace now state excluded expectedGeneration).state ↔
      Fits c state expectedGeneration := by
  have hmatch : StatsMatch (c.replacement state expectedGeneration) := statsMatch_replacement h
  have hnodes : (c.replace now state excluded expectedGeneration).state.nodes =
    (c.replacement state expectedGeneration).nodes.take publicCacheMaxNodes := rfl
  have hroutes : (c.replace now state excluded expectedGeneration).state.routes =
    (c.replacement state expectedGeneration).routes.take publicCacheMaxRoutes := rfl
  have hactivity : (c.replace now state excluded expectedGeneration).state.recentActivity =
    (c.replacement state expectedGeneration).recentActivity.take publicCacheMaxActivity := rfl
  have hcounters := counters_take_iff (c.replacement state expectedGeneration).recentActivity
    publicCacheMaxActivity
  rw [length_activity_replacement] at hcounters
  constructor
  · intro hinstalled
    have hactive : (c.replacement state expectedGeneration).stats.activeNodes = _ :=
      hinstalled.activeNodes
    have hactiveRoutes : (c.replacement state expectedGeneration).stats.activeRoutes = _ :=
      hinstalled.activeRoutes
    rw [hnodes, hmatch.activeNodes, List.length_take, length_nodes_replacement] at hactive
    rw [hroutes, hmatch.activeRoutes, List.length_take, routes_replacement] at hactiveRoutes
    refine ⟨by omega, by omega, hcounters.mp fun iata bucket => ?_⟩
    rw [← hmatch.resolutionBuckets, ← hactivity]
    exact hinstalled.resolutionBuckets iata bucket
  · intro hfits
    constructor
    · rw [hnodes, List.take_of_length_le (length_nodes_replacement.trans_le hfits.nodes)]
      exact hmatch.activeNodes
    · rw [hroutes, List.take_of_length_le (by rw [routes_replacement]; exact hfits.routes)]
      exact hmatch.activeRoutes
    · intro iata bucket
      rw [hactivity, ← hcounters.mpr hfits.activity]
      exact hmatch.resolutionBuckets iata bucket

/-! ## Live updates -/

theorem StatsMatch.recordLiveUpdateLocked (h : StatsMatch c.state) (now : Int) :
    StatsMatch (c.recordLiveUpdateLocked now).state := by
  unfold PublicStateCache.recordLiveUpdateLocked
  split <;> exact ⟨h.activeNodes, h.activeRoutes, h.resolutionBuckets⟩

theorem StatsMatch.advanceLatestSeq (h : StatsMatch state) (seq : Int) :
    StatsMatch { state with stats := PublicStateCache.advanceLatestSeq state.stats seq } :=
  ⟨h.activeNodes, h.activeRoutes, h.resolutionBuckets⟩

theorem StatsMatch.advanceServerTime (h : StatsMatch state) (heardAt : Int) :
    StatsMatch (PublicStateCache.advanceServerTime state heardAt) := by
  unfold PublicStateCache.advanceServerTime
  split
  · exact ⟨h.activeNodes, h.activeRoutes, h.resolutionBuckets⟩
  · exact h

/-- A live update cuts its list first and counts what is left. -/
theorem statsMatch_apply (h : StatsMatch c.state) (hready : c.ready = true) (now : Int)
    (data : PublicData) : StatsMatch (c.apply now data).state := by
  cases data with
  | node item =>
    show StatsMatch (c.applyNode now item).state
    unfold PublicStateCache.applyNode
    rw [hready, Bool.not_true, if_neg Bool.false_ne_true]
    refine StatsMatch.recordLiveUpdateLocked ?_ now
    exact ⟨rfl, h.activeRoutes, h.resolutionBuckets⟩
  | activity item =>
    show StatsMatch (c.applyActivity now item).state
    unfold PublicStateCache.applyActivity
    rw [hready, Bool.not_true, if_neg Bool.false_ne_true]
    refine StatsMatch.recordLiveUpdateLocked (StatsMatch.advanceLatestSeq
      (StatsMatch.advanceServerTime ?_ item.heardAt) item.seq) now
    exact ⟨h.activeNodes, h.activeRoutes, fun _ _ => rfl⟩
  | pulse item =>
    show StatsMatch (c.applyRoutePulse now item).state
    unfold PublicStateCache.applyRoutePulse
    rw [hready, Bool.not_true, if_neg Bool.false_ne_true]
    refine StatsMatch.recordLiveUpdateLocked (StatsMatch.advanceLatestSeq
      (StatsMatch.advanceServerTime ?_ item.heardAt) item.seq) now
    exact ⟨h.activeNodes, h.activeRoutes, h.resolutionBuckets⟩

theorem statsMatch_applyOp (h : c.ready = true → StatsMatch c.state) (op : CacheOp)
    (hready : (c.applyOp op).ready = true) : StatsMatch (c.applyOp op).state := by
  cases op with
  | apply now data =>
    change (c.apply now data).ready = true at hready
    show StatsMatch (c.apply now data).state
    cases hcache : c.ready with
    | false =>
      rw [PublicStateCache.apply_not_ready hcache, hcache] at hready
      cases hready
    | true => exact statsMatch_apply (h hcache) hcache now data
  | setPacketCount count =>
    change (c.setPacketCount count).ready = true at hready
    show StatsMatch (c.setPacketCount count).state
    unfold PublicStateCache.setPacketCount at hready ⊢
    split at hready
    · rename_i hignored
      rw [if_pos hignored]
      exact h hready
    · rename_i hset
      rw [if_neg hset]
      have := h hready
      exact ⟨this.activeNodes, this.activeRoutes, this.resolutionBuckets⟩

/-! ## Runs -/

section Runs

variable [LiveEnv]

/-- A fresh state from the database. -/
def Built (state : PublicLiveState) : Prop :=
  ∃ (read : State) (stats : PublicStats) (now : Int), state = buildPublicLiveState read stats now

theorem statsMatch_of_built (h : Built state) : StatsMatch state := by
  obtain ⟨read, stats, now, rfl⟩ := h
  exact ⟨rfl, rfl, fun _ _ => rfl⟩

/-- Replacements install states from the database. -/
def Fresh (_ : PublicStateCache) : CacheAct → Prop
  | .replace _ state _ _ => Built state
  | _ => True

/-- Replacements install states from the database that fit the limits. -/
def Fitting (c : PublicStateCache) : CacheAct → Prop
  | .replace _ state _ expectedGeneration => Built state ∧ Fits c state expectedGeneration
  | _ => True

theorem fitting_inductive (filter : PublicIATAFilter) :
    (cacheSystem filter).InductiveOn Fitting fun c => c.ready = true → StatsMatch c.state where
  init c hc hready := by
    rw [hc] at hready
    cases hready
  step c act c' h hok hstep hready := by
    cases act with
    | live op =>
      cases hstep
      exact statsMatch_applyOp h op hready
    | recordExcludedIATA iata =>
      cases hstep
      exact h hready
    | replace now state excluded expectedGeneration =>
      cases hstep
      exact (statsMatch_replace_iff (statsMatch_of_built hok.1) now excluded).mpr hok.2

/-- The statistics are those of the lists as long as no replacement is cut, and a replacement that
is cut makes them wrong. -/
theorem stats_match_unless_cut (filter : PublicIATAFilter) {c : PublicStateCache}
    (h : (cacheSystem filter).ReachOn Fitting c) :
    (c.ready = true → StatsMatch c.state) ∧
      ∀ now state excluded expectedGeneration, Built state →
        (StatsMatch (c.replace now state excluded expectedGeneration).state ↔
          Fits c state expectedGeneration) :=
  ⟨(fitting_inductive filter).invariant h, fun now _ excluded _ hbuilt =>
    statsMatch_replace_iff (statsMatch_of_built hbuilt) now excluded⟩

end Runs

section Samples

attribute [local instance] defaultEnv

/-- What a database read finds with so many packets. -/
def sampleRead (packets : Nat) : State :=
  { serverTime := 0, nodes := [], observers := [], routes := [], recentEdgeEvents := []
    recentPackets := List.replicate packets
      { id := 1, packetHash := "", payloadTypeName := "", routeTypeName := "", observerPublicKey := ""
        iata := "YVR", heardAt := 0, hopCount := 0, resolutionStatus := "", messageSender := ""
        messageText := "", invalidForMap := false } }

def sampleState (packets : Nat) : PublicLiveState :=
  buildPublicLiveState (sampleRead packets) emptyPublicLiveState.stats 0

theorem length_recentActivity_sampleState (packets : Nat) :
    (sampleState packets).recentActivity.length = packets := by
  show ((sampleRead packets).recentPackets.map _).length = packets
  rw [List.length_map]
  exact List.length_replicate

theorem built_sampleState (packets : Nat) : Built (sampleState packets) :=
  ⟨_, _, _, rfl⟩

/-- A replacement of a new cache that fits. -/
theorem stats_match_unless_cut_at_limit :
    let c := (newPublicStateCache (newPublicIATAFilter [])).replace 0 (sampleState 240) [] none
    (c.ready = true → StatsMatch c.state) ∧
      ∀ now state excluded expectedGeneration, Built state →
        (StatsMatch (c.replace now state excluded expectedGeneration).state ↔
          Fits c state expectedGeneration) :=
  stats_match_unless_cut (newPublicIATAFilter []) <|
    .step (a := .replace 0 (sampleState 240) [] none) (.init rfl)
      ⟨built_sampleState 240,
        { nodes := by decide +kernel
          routes := by decide +kernel
          activity := (length_recentActivity_sampleState 240).le }⟩
      rfl

/-- With 241 packets the counters count one that is not in the list. -/
theorem counters_of_cut_activity :
    ¬ ∀ (filter : PublicIATAFilter) (c : PublicStateCache), (cacheSystem filter).ReachOn Fresh c →
      c.ready = true → StatsMatch c.state := by
  intro h
  have hmatch := h (newPublicIATAFilter []) _
    (.step (a := .replace 0 (sampleState 241) [] none) (.init rfl) (built_sampleState 241) rfl) rfl
  have hfits := ((statsMatch_replace_iff (statsMatch_of_built (built_sampleState 241)) 0 []).mp
    hmatch).activity
  change (sampleState 241).recentActivity.length ≤ 240 at hfits
  rw [length_recentActivity_sampleState] at hfits
  omega

end Samples

end CartoLive.Theorems.CacheStatistics
