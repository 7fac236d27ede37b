import CartoLive.Live.CacheRuns

/-!
# Cached lists hold each entity once

A replacement installs lists without duplicates, fresh or merged, and a live node
takes the place of the older one. A live activity or pulse goes in front of its
list as it is, so where a replacement has brought it already it is there twice
(`activity_twice`). In runs in which no live activity or pulse is held already,
every list holds each entity once; the limits and the journals hold in all runs.
-/

namespace CartoLive.Theorems.CachedOnce

open CartoLive.Lib CartoLive.Live

variable {c c' : PublicStateCache}

/-! ## The runs -/

/-- A fresh state has lists without duplicates. -/
def FreshOnce : CacheAct → Prop
  | .replace _ state _ _ => (state.nodes.map PublicNode.id).Nodup ∧
      (state.recentActivity.map PublicActivity.id).Nodup ∧
      (state.recentPulses.map PublicRoutePulse.id).Nodup
  | _ => True

/-- A live activity or pulse is not among the cached ones, but for the one that it
pushes out. -/
def NotHeld (c : PublicStateCache) : CacheAct → Prop
  | .live (.apply _ (.activity item)) => c.ready = true →
      item.id ∉ (c.state.recentActivity.take (publicCacheMaxActivity - 1)).map PublicActivity.id
  | .live (.apply _ (.pulse item)) => c.ready = true →
      item.id ∉ (c.state.recentPulses.take (publicCacheMaxPulses - 1)).map PublicRoutePulse.id
  | _ => True

instance (a : CacheAct) : Decidable (FreshOnce a) := by
  unfold FreshOnce
  split <;> infer_instance

instance (c : PublicStateCache) (a : CacheAct) : Decidable (NotHeld c a) := by
  unfold NotHeld
  split <;> infer_instance

/-! ## The identifiers of a list -/

/-- The identifiers of a list. -/
def ids (state : PublicLiveState) : Kind → List String
  | .node => state.nodes.map PublicNode.id
  | .activity => state.recentActivity.map PublicActivity.id
  | .pulse => state.recentPulses.map PublicRoutePulse.id

theorem map_key_versions (state : PublicLiveState) (k : Kind) :
    (state.versions k).map Version.key = ids state k := by
  cases k <;> exact List.map_map ..

theorem map_key_filter (l : List Version) (key : String) :
    (l.filter fun v => v.key ≠ key).map Version.key = (l.map Version.key).filter fun id => id ≠ key := by
  rw [List.filter_map]
  rfl

theorem nodup_merge_ids {α : Type} (w : View α String) (before : α → α → Prop)
    [DecidableRel before] (fresh current : List α) :
    (((w.merge fresh current).insertionSort before).map w.key).Nodup := by
  have hperm := (List.perm_insertionSort before (w.merge fresh current)).map w.key
  exact hperm.nodup_iff.mpr (View.nodup_merge fresh current)

/-- A replacement installs lists without duplicates. -/
theorem nodup_replacement {fresh : PublicLiveState} (expectedGeneration : Option Nat)
    (hfresh : ∀ k, (ids fresh k).Nodup) (k : Kind) :
    (ids (c.replacement fresh expectedGeneration) k).Nodup := by
  by_cases hp : ∃ g, c.Preserving expectedGeneration g
  · obtain ⟨g, hp⟩ := hp
    rw [PublicStateCache.replacement_of_preserving hp]
    cases k with
    | node => exact nodup_merge_ids nodeView nodeBefore ..
    | activity => exact nodup_merge_ids activityView (heardBefore activityView) ..
    | pulse => exact nodup_merge_ids pulseView (heardBefore pulseView) ..
  · rw [PublicStateCache.replacement_of_not_preserving fun g hg => hp ⟨g, hg⟩]
    exact hfresh k

theorem ids_replace (c : PublicStateCache) (now : Int) (fresh : PublicLiveState)
    (excluded : Counter) (expectedGeneration : Option Nat) (k : Kind) :
    ids (c.replace now fresh excluded expectedGeneration).state k =
      (ids (c.replacement fresh expectedGeneration) k).take k.limit := by
  rw [← map_key_versions, PublicStateCache.versions_replace, List.map_take, map_key_versions]

/-! ## Live updates -/

/-- The identifiers of a list with an update in front, before it is cut. -/
def nextIds (c : PublicStateCache) (data : PublicData) : List String :=
  data.version.key ::
    match data.kind with
    | .node => (ids c.state .node).filter fun id => id ≠ data.version.key
    | kind => ids c.state kind

theorem map_key_nextVersions (c : PublicStateCache) (data : PublicData) :
    (c.nextVersions data).map Version.key = nextIds c data := by
  unfold PublicStateCache.nextVersions nextIds
  rw [List.map_cons]
  cases data with
  | node item =>
    show _ :: ((c.state.versions .node).filter _).map Version.key = _
    rw [map_key_filter, map_key_versions]
    rfl
  | activity item => exact congrArg _ (map_key_versions c.state .activity)
  | pulse item => exact congrArg _ (map_key_versions c.state .pulse)

theorem limit_pos (k : Kind) : 0 < k.limit := by
  cases k <;> decide

/-- A new identifier in front of a list, cut to the limit, is new in it. -/
theorem nodup_take_cons {key : String} {l : List String} {n : Nat} (hn : 0 < n) (hl : l.Nodup)
    (hkey : key ∉ l.take (n - 1)) : ((key :: l).take n).Nodup := by
  obtain ⟨m, rfl⟩ := Nat.exists_eq_succ_of_ne_zero (Nat.ne_of_gt hn)
  exact List.nodup_cons.mpr ⟨hkey, hl.sublist (List.take_sublist m l)⟩

theorem nodup_nextIds {data : PublicData} {now : Int} (hready : c.ready = true)
    (hnew : NotHeld c (.live (.apply now data))) (honce : ∀ k, (ids c.state k).Nodup) :
    ((nextIds c data).take data.kind.limit).Nodup := by
  refine nodup_take_cons (limit_pos data.kind) ?_ ?_
  · cases data with
    | node item => exact (honce .node).filter _
    | activity item => exact honce .activity
    | pulse item => exact honce .pulse
  · cases data with
    | node item =>
      intro hmem
      exact absurd rfl (of_decide_eq_true (List.mem_filter.mp (List.mem_of_mem_take hmem)).2)
    | activity item =>
      have hno := hnew hready
      rw [List.map_take] at hno
      exact hno
    | pulse item =>
      have hno := hnew hready
      rw [List.map_take] at hno
      exact hno

/-- What a live update does to the identifiers. -/
theorem ids_applied {data : PublicData} (h : PublicStateCache.Applied c c' data) (k : Kind) :
    ids c'.state k = if k = data.kind then (nextIds c data).take k.limit else ids c.state k := by
  rw [← map_key_versions]
  split
  · rename_i hk
    subst hk
    rw [h.versions, List.map_take, map_key_nextVersions]
  · rename_i hk
    rw [h.versions_other k hk, map_key_versions]

/-! ## The journals -/

/-- A journal holds only identifiers of the list. -/
def JournalsHeld (c : PublicStateCache) : Prop := ∀ k id, c.journal k id ≠ 0 → id ∈ ids c.state k

/-- An identifier that stays in the journal was not pushed out. -/
theorem JournalsHeld.applied {data : PublicData} (h : JournalsHeld c)
    (happlied : PublicStateCache.Applied c c' data) : JournalsHeld c' := by
  intro k id hid
  rw [ids_applied happlied]
  split
  · rename_i hk
    subst hk
    rw [happlied.journal] at hid
    unfold PublicStateCache.Journal.record at hid
    have hfront : data.version.key ∈ (nextIds c data).take data.kind.limit := by
      obtain ⟨m, hm⟩ := Nat.exists_eq_succ_of_ne_zero (Nat.ne_of_gt (limit_pos data.kind))
      rw [hm]
      exact List.mem_cons_self
    split at hid
    · rename_i heq
      rw [heq]
      exact hfront
    · rename_i hne
      split at hid
      · exact absurd rfl hid
      · rename_i hstays
        have hnext : id ∈ nextIds c data := by
          refine List.mem_cons_of_mem _ ?_
          have hold := h data.kind id hid
          cases data with
          | node item => exact List.mem_filter.mpr ⟨hold, decide_eq_true hne⟩
          | activity item => exact hold
          | pulse item => exact hold
        rw [PublicStateCache.evicted, List.map_drop, map_key_nextVersions] at hstays
        rw [← List.take_append_drop data.kind.limit (nextIds c data)] at hnext
        exact (List.mem_append.mp hnext).resolve_right hstays
  · rename_i hk
    rw [happlied.journal_other k hk] at hid
    exact h k id hid

/-- A step that changes neither lists nor journals. -/
theorem ids_quiet (h : PublicStateCache.Quiet c c') (k : Kind) : ids c'.state k = ids c.state k := by
  rw [← map_key_versions, h.versions, map_key_versions]

/-- A live update of a cache that is warming changes nothing. -/
theorem applied_or_same (c : PublicStateCache) (now : Int) (data : PublicData) :
    (c.ready = true ∧ PublicStateCache.Applied c (c.apply now data) data) ∨
      c.apply now data = c := by
  cases hready : c.ready with
  | true => exact .inl ⟨rfl, PublicStateCache.apply_applied hready now data⟩
  | false => exact .inr (PublicStateCache.apply_not_ready hready now data)

theorem journals_held (filter : PublicIATAFilter) :
    (cacheSystem filter).InductiveOn (fun _ _ => True) JournalsHeld where
  init c hc := by
    cases hc
    intro k id hid
    cases k <;> exact absurd rfl hid
  step c a c' h _ hstep := by
    cases a with
    | live op =>
      cases hstep
      cases op with
      | apply now data =>
        rcases applied_or_same c now data with ⟨-, happlied⟩ | hsame
        · exact h.applied happlied
        · show JournalsHeld (c.apply now data)
          rw [hsame]
          exact h
      | setPacketCount count =>
        have hquiet := PublicStateCache.setPacketCount_quiet c count
        intro k id hid
        rw [PublicStateCache.applyOp, ids_quiet hquiet]
        rw [PublicStateCache.applyOp, hquiet.journal] at hid
        exact h k id hid
    | recordExcludedIATA iata =>
      cases hstep
      have hquiet := PublicStateCache.recordExcludedIATA_quiet c iata
      intro k id hid
      rw [ids_quiet hquiet]
      rw [hquiet.journal] at hid
      exact h k id hid
    | replace now state excluded expectedGeneration =>
      cases hstep
      intro k id hid
      exact absurd (PublicStateCache.journal_replace ..) hid

/-! ## The result -/

/-- The guard of the runs: fresh states hold each entity once, and what comes live
is not held already. -/
def Once (c : PublicStateCache) (a : CacheAct) : Prop := FreshOnce a ∧ NotHeld c a

instance (c : PublicStateCache) (a : CacheAct) : Decidable (Once c a) :=
  inferInstanceAs (Decidable (FreshOnce a ∧ NotHeld c a))

/-- The cached nodes, activity and pulses, and their journals. -/
structure HoldsOnce (c : PublicStateCache) : Prop where
  once : ∀ k, (ids c.state k).Nodup
  limit : ∀ k, (ids c.state k).length ≤ k.limit
  journal : ∀ k id, c.journal k id ≠ 0 →
    id ∈ ids c.state k ∧ c.journal k id ≤ c.mutationGeneration

theorem nodup_inductive (filter : PublicIATAFilter) :
    (cacheSystem filter).InductiveOn Once fun c => ∀ k, (ids c.state k).Nodup where
  init c hc := by
    cases hc
    exact fun k => by cases k <;> exact List.nodup_nil
  step c a c' h hok hstep := by
    intro k
    cases a with
    | live op =>
      cases hstep
      cases op with
      | apply now data =>
        rcases applied_or_same c now data with ⟨hready, happlied⟩ | hsame
        · show (ids (c.apply now data).state k).Nodup
          rw [ids_applied happlied]
          split
          · rename_i hk
            rw [hk]
            exact nodup_nextIds hready hok.2 h
          · exact h k
        · show (ids (c.apply now data).state k).Nodup
          rw [hsame]
          exact h k
      | setPacketCount count =>
        rw [PublicStateCache.applyOp, ids_quiet (PublicStateCache.setPacketCount_quiet c count)]
        exact h k
    | recordExcludedIATA iata =>
      cases hstep
      rw [ids_quiet (PublicStateCache.recordExcludedIATA_quiet c iata)]
      exact h k
    | replace now state excluded expectedGeneration =>
      cases hstep
      rw [ids_replace]
      refine (nodup_replacement expectedGeneration (fun k => ?_) k).sublist (List.take_sublist ..)
      cases k with
      | node => exact hok.1.1
      | activity => exact hok.1.2.1
      | pulse => exact hok.1.2.2

theorem cached_once (filter : PublicIATAFilter) (c : PublicStateCache)
    (hc : (cacheSystem filter).ReachOn Once c) : HoldsOnce c := by
  have hbounds := (cacheBounds filter).invariant hc.reachable
  have hjournals := (journals_held filter).invariant hc.reachable
  refine ⟨(nodup_inductive filter).invariant hc, fun k => ?_, fun k id hid => ?_⟩
  · rw [← map_key_versions, List.length_map]
    exact hbounds.length k
  · exact ⟨hjournals k id hid, hbounds.journal k id⟩

def openFilter : PublicIATAFilter := newPublicIATAFilter []

/-- A replacement that brings an activity. -/
def bringActivity : CacheAct :=
  .replace 0 { emptyPublicLiveState with recentActivity := [.sample "a" 1] } [] none

/-- Another activity comes live. -/
theorem cached_once_two : ∃ c : PublicStateCache,
    ids c.state .activity = ["b", "a"] ∧ HoldsOnce c := by
  obtain ⟨c, hc, htest⟩ := TSys.exists_reachOn_of_runOn (M := cacheSystem openFilter) Once
    [bringActivity, .live (.apply 1 (.activity (.sample "b" 2)))]
    (fun c => ids c.state .activity = ["b", "a"]) rfl (by decide +kernel)
  exact ⟨c, of_decide_eq_true htest, cached_once openFilter c hc⟩

/-- The activity that the replacement has brought comes live. -/
theorem activity_twice : ¬ ∀ (filter : PublicIATAFilter) (c : PublicStateCache),
    (cacheSystem filter).ReachOn (fun _ a => FreshOnce a) c → HoldsOnce c := by
  intro h
  obtain ⟨c, hc, htest⟩ := TSys.exists_reachOn_of_runOn (M := cacheSystem openFilter)
    (fun _ a => FreshOnce a) [bringActivity, .live (.apply 1 (.activity (.sample "a" 1)))]
    (fun c => ids c.state .activity = ["a", "a"]) rfl (by decide +kernel)
  have honce := (h openFilter c hc).once .activity
  rw [of_decide_eq_true htest] at honce
  exact absurd honce (by decide)

end CartoLive.Theorems.CachedOnce
