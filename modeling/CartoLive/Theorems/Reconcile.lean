import CartoLive.Live.CacheRuns

/-!
# A reconcile among live updates

A replacement that started at a generation keeps every node that was applied
since and is still cached. For activity and pulses it does so exactly when no
older item of the same identifier was pushed out of the list afterwards, which
deletes the journal entry of the identifier, and none that is still cached wins
over the latest one.
-/

namespace CartoLive.Theorems.Reconcile

open CartoLive.Lib CartoLive.Live

variable {α : Type}

/-! ## What is asked -/

/-- `v` is the latest update of its identifier in a run. -/
def Latest (L : Listed α) (ops : List CacheOp) (v : α) : Prop :=
  (L.updates ops).find? (fun x => L.view.key x = L.view.key v) = some v

/-- The cached items of the identifier of `v` after a run, newest first. -/
def copies (L : Listed α) (c : PublicStateCache) (ops : List CacheOp) (v : α) : List α :=
  (L.items (c.applyOps ops).state).filter fun x => L.view.key x = L.view.key v

def NewerInFresh (L : Listed α) (fresh : PublicLiveState) (v : α) : Prop :=
  ∃ f ∈ L.items fresh, L.view.key f = L.view.key v ∧ L.view.Newer f v

/-- `ReplacePreservingMutations` after a run, with the generation from before. -/
def reconciled (c : PublicStateCache) (ops : List CacheOp) (now : Int) (fresh : PublicLiveState)
    (excluded : Counter) : PublicStateCache :=
  (c.applyOps ops).replace now fresh excluded (some c.mutationGeneration)

/-- What the final size cap cuts. -/
def cut (L : Listed α) (c : PublicStateCache) (ops : List CacheOp) (fresh : PublicLiveState) :
    List α :=
  (L.items ((c.applyOps ops).replacement fresh (some c.mutationGeneration))).drop L.kind.limit

/-- Nothing that raced is lost. -/
def Kept (L : Listed α) (c : PublicStateCache) (ops : List CacheOp) (now : Int)
    (fresh : PublicLiveState) (excluded : Counter) : Prop :=
  ∀ v, Latest L ops v → copies L c ops v ≠ [] →
    v ∈ L.items (reconciled c ops now fresh excluded).state ∨ v ∈ cut L c ops fresh ∨
      NewerInFresh L fresh v

/-- Nothing is resurrected. -/
def Known (L : Listed α) (c : PublicStateCache) (ops : List CacheOp) (now : Int)
    (fresh : PublicLiveState) (excluded : Counter) : Prop :=
  ∀ x ∈ L.items (reconciled c ops now fresh excluded).state,
    (∃ f ∈ L.items fresh, L.view.key f = L.view.key x) ∨
      ∃ u ∈ L.updates ops, L.view.key u = L.view.key x

/-- The packet count that a run has set, with the packets since; a negative count
is refused. -/
def countStep (count : Option Int) : CacheOp → Option Int
  | .setPacketCount n => if 0 ≤ n then some n else count
  | .apply _ (.activity item) =>
    if item.kind = "packet" ∨ item.kind = "route" then count.map (· + 1) else count
  | .apply _ _ => count

def packetCountAfter (ops : List CacheOp) : Option Int := ops.foldl countStep none

structure Reconciled (c : PublicStateCache) (ops : List CacheOp) (now : Int)
    (fresh : PublicLiveState) (excluded : Counter) : Prop where
  nodes : Kept nodeList c ops now fresh excluded
  activity : Kept activityList c ops now fresh excluded
  pulses : Kept pulseList c ops now fresh excluded
  knownNodes : Known nodeList c ops now fresh excluded
  knownActivity : Known activityList c ops now fresh excluded
  knownPulses : Known pulseList c ops now fresh excluded
  knownRoutes : ∀ route ∈ (reconciled c ops now fresh excluded).state.routes, route ∈ fresh.routes
  packets : ∀ n, packetCountAfter ops = some n →
    (reconciled c ops now fresh excluded).state.stats.packets = n

/-! ## When it holds -/

/-- The updates after `v`. -/
def laterUpdates (L : Listed α) (ops : List CacheOp) (v : α) : List α :=
  (L.updates ops).takeWhile fun x => L.view.key x ≠ L.view.key v

/-- What the updates after `v` push out of the list that `v` was put in front of. -/
def pushedOut (L : Listed α) (c : PublicStateCache) (ops : List CacheOp) (v : α) : List α :=
  (((L.updates ops ++ L.items c.state).drop (laterUpdates L ops v).length).take
    L.kind.limit).drop (L.kind.limit - (laterUpdates L ops v).length)

/-- An older item of the identifier was pushed out after `v`. -/
def Forgotten (L : Listed α) (c : PublicStateCache) (ops : List CacheOp) (v : α) : Prop :=
  ∃ x ∈ pushedOut L c ops v, L.view.key x = L.view.key v

/-- An older item of the identifier is cached that is newer by its data, or is as
new and not the same. -/
def Outdone (L : Listed α) (c : PublicStateCache) (ops : List CacheOp) (v : α) : Prop :=
  (∃ x ∈ (copies L c ops v).tail, L.view.Newer x v) ∨
    ∃ x ∈ ((copies L c ops v).tail.filter fun y => L.view.AtLeast y v).getLast?, x ≠ v

/-- When the latest update of an identifier survives. -/
def Survives (L : Listed α) (c : PublicStateCache) (ops : List CacheOp) (fresh : PublicLiveState)
    (v : α) : Prop :=
  NewerInFresh L fresh v ∨ ¬ Forgotten L c ops v ∧ ¬ Outdone L c ops v ∨
    Forgotten L c ops v ∧
      ((L.items fresh).filter fun x => L.view.key x = L.view.key v).getLast? = some v

/-- The latest update of each identifier that is still cached survives. -/
def AllSurvive (L : Listed α) (c : PublicStateCache) (ops : List CacheOp)
    (fresh : PublicLiveState) : Prop :=
  ∀ v, Latest L ops v → copies L c ops v ≠ [] → Survives L c ops fresh v

/-! ## What is merged -/

section Merge

variable {L : Listed α} {c : PublicStateCache} {ops : List CacheOp} {v : α}
  {fresh : PublicLiveState}

/-- The items that a merge lays over the fresh ones. -/
def overlaid (L : Listed α) (c : PublicStateCache) (ops : List CacheOp) : List α :=
  (L.items (c.applyOps ops).state).filter fun x =>
    c.mutationGeneration < (c.applyOps ops).journal L.kind (L.view.key x)

theorem Latest.split (h : Latest L ops v) :
    ∃ rest, L.updates ops = laterUpdates L ops v ++ v :: rest ∧
      ∀ y ∈ laterUpdates L ops v, L.view.key y ≠ L.view.key v := by
  obtain ⟨-, later, rest, hsplit, hlater⟩ := List.find?_eq_some_iff_append.mp h
  have heq : laterUpdates L ops v = later := by
    unfold laterUpdates
    rw [hsplit, List.takeWhile_append_of_pos (by simpa using hlater),
      List.takeWhile_cons_of_neg (by simp), List.append_nil]
  rw [heq]
  exact ⟨rest, hsplit, by simpa using hlater⟩

theorem Latest.preserving (h : Latest L ops v) (hL : L.Lawful) (hready : c.ready = true) :
    (c.applyOps ops).Preserving (some c.mutationGeneration) c.mutationGeneration := by
  obtain ⟨us, hrun⟩ := hL.run hready ops
  refine ⟨rfl, hrun.ready, ?_⟩
  have hmem : v ∈ Journaled.updated us := hrun.updated ▸ List.mem_of_find?_eq_some h
  obtain ⟨u, hu, -⟩ := List.mem_map.mp (List.mem_reverse.mp hmem)
  have := hrun.times u hu
  omega

/-- What a reconcile holds of the identifier of an update. -/
theorem mem_replacement_iff (h : Latest L ops v) (hL : L.Lawful) (hready : c.ready = true) :
    v ∈ L.items ((c.applyOps ops).replacement fresh (some c.mutationGeneration)) ↔
      ((overlaid L c ops).filter fun x => L.view.key x = L.view.key v).foldl L.view.contend
        ((L.items fresh).filter fun x => L.view.key x = L.view.key v).getLast? = some v := by
  rw [PublicStateCache.replacement_of_preserving (h.preserving hL hready), hL.merged]
  exact View.mem_merge_iff

/-- All cached items of a journaled identifier are overlaid, or none. -/
theorem filter_overlaid :
    ((overlaid L c ops).filter fun x => L.view.key x = L.view.key v) =
      if c.mutationGeneration < (c.applyOps ops).journal L.kind (L.view.key v) then
        copies L c ops v
      else [] := by
  unfold overlaid copies
  rw [List.filter_filter]
  split
  · rename_i hjournal
    refine List.filter_congr fun x _ => ?_
    by_cases hk : L.view.key x = L.view.key v
    · simp [hk, hjournal]
    · simp [hk]
  · rename_i hjournal
    refine List.filter_eq_nil_iff.mpr fun x _ => ?_
    by_cases hk : L.view.key x = L.view.key v
    · simp [hk, hjournal]
    · simp [hk]

/-- The latest update, when it is journaled and stands first among the copies. -/
theorem mem_replacement_of_journaled (h : Latest L ops v) (hL : L.Lawful)
    (hready : c.ready = true) (hnewer : ¬ NewerInFresh L fresh v) {older : List α}
    (hcopies : copies L c ops v = v :: older)
    (hjournal : c.mutationGeneration < (c.applyOps ops).journal L.kind (L.view.key v)) :
    v ∈ L.items ((c.applyOps ops).replacement fresh (some c.mutationGeneration)) ↔
      older.foldl L.view.contend (some v) = some v := by
  rw [mem_replacement_iff h hL hready, filter_overlaid, if_pos hjournal, hcopies,
    List.foldl_cons]
  have hfirst : L.view.contend
      ((L.items fresh).filter fun x => L.view.key x = L.view.key v).getLast? v = some v := by
    unfold View.contend
    split
    · rfl
    · rename_i f hf
      obtain ⟨hmem, hkey⟩ := List.mem_filter.mp (List.mem_of_getLast? hf)
      refine if_pos (View.not_newer.mp fun hn => hnewer ⟨f, hmem, of_decide_eq_true hkey, hn⟩)
  rw [hfirst]

theorem mem_replaced_or_cut (hL : L.Lawful) {now : Int} {excluded : Counter} :
    v ∈ L.items (reconciled c ops now fresh excluded).state ∨ v ∈ cut L c ops fresh ↔
      v ∈ L.items ((c.applyOps ops).replacement fresh (some c.mutationGeneration)) := by
  unfold reconciled cut
  rw [hL.replaced, ← List.mem_append, List.take_append_drop]

/-! ## Lists where identifiers repeat -/

/-- The latest update stands first among the copies, if there are any. -/
theorem copies_eq (hL : L.Lawful) (hunique : L.unique = false) (hready : c.ready = true)
    (hc : CacheBounds c) (h : Latest L ops v) (hcached : copies L c ops v ≠ []) :
    copies L c ops v = v :: (copies L c ops v).tail := by
  obtain ⟨us, hrun⟩ := hL.run hready ops
  have hlength : (L.cached c).items.length ≤ L.kind.limit := by
    show (L.items c.state).length ≤ _
    rw [hL.length]
    exact hc.length L.kind
  have hitems : L.items (c.applyOps ops).state =
      (L.updates ops ++ L.items c.state).take L.kind.limit := by
    have := congrArg Journaled.items hrun.cached
    rw [hunique, Journaled.items_run hlength, hrun.updated] at this
    exact this
  obtain ⟨x, hx⟩ := Option.ne_none_iff_exists'.mp (mt List.head?_eq_none_iff.mp hcached)
  have hfind : (L.items (c.applyOps ops).state).find?
      (fun y => L.view.key y = L.view.key v) = some x := by
    rw [← List.head?_filter]
    exact hx
  have hfull : (L.updates ops ++ L.items c.state).find?
      (fun y => L.view.key y = L.view.key v) = some x := by
    rw [← List.take_append_drop L.kind.limit (L.updates ops ++ L.items c.state), ← hitems,
      List.find?_append, hfind]
    rfl
  rw [List.find?_append, h] at hfull
  cases hfull
  exact List.eq_cons_of_mem_head? hx

theorem journaled_iff (hL : L.Lawful) (hunique : L.unique = false) (hready : c.ready = true)
    (hc : CacheBounds c) (h : Latest L ops v) :
    c.mutationGeneration < (c.applyOps ops).journal L.kind (L.view.key v) ↔
      ¬ Forgotten L c ops v := by
  obtain ⟨us, hrun⟩ := hL.run hready ops
  obtain ⟨rest, hsplit, hlater⟩ := h.split
  have hlength : (L.cached c).items.length ≤ L.kind.limit := by
    show (L.items c.state).length ≤ _
    rw [hL.length]
    exact hc.length L.kind
  have hjournal := congrArg Journaled.journal hrun.cached
  rw [hunique] at hjournal
  have hdrop : (L.updates ops ++ L.items c.state).drop (laterUpdates L ops v).length =
      v :: rest ++ L.items c.state := by
    rw [hsplit, List.append_assoc, List.drop_left]
  show _ < (L.cached (c.applyOps ops)).journal _ ↔ _
  rw [hjournal, Journaled.journal_run hlength (fun u hu => (hrun.times u hu).1)
    (hrun.updated.trans hsplit) hlater]
  unfold Forgotten pushedOut
  rw [hdrop]
  push Not
  rfl

theorem outdone_iff :
    ¬ Outdone L c ops v ↔
      (copies L c ops v).tail.foldl L.view.contend (some v) = some v := by
  rw [View.foldl_contend_eq_iff]
  unfold Outdone
  push Not
  rfl

variable (ops fresh) in
/-- Where identifiers repeat, a reconcile keeps what survives. -/
theorem kept_iff_survives (hL : L.Lawful) (hunique : L.unique = false) (hready : c.ready = true)
    (hc : CacheBounds c) (now : Int) (excluded : Counter) :
    Kept L c ops now fresh excluded ↔ AllSurvive L c ops fresh := by
  refine forall_congr' fun v => forall_congr' fun h => forall_congr' fun hcached => ?_
  rw [← or_assoc, mem_replaced_or_cut hL]
  by_cases hnewer : NewerInFresh L fresh v
  · exact iff_of_true (Or.inr hnewer) (Or.inl hnewer)
  · have hiff := journaled_iff hL hunique hready hc h
    unfold Survives
    rw [or_iff_left hnewer, or_iff_right hnewer]
    by_cases hforgotten : Forgotten L c ops v
    · rw [mem_replacement_iff h hL hready, filter_overlaid, if_neg fun hj => hiff.mp hj hforgotten]
      simp [hforgotten]
    · rw [mem_replacement_of_journaled h hL hready hnewer
        (copies_eq hL hunique hready hc h hcached) (hiff.mpr hforgotten), ← outdone_iff]
      simp [hforgotten]

/-! ## Lists where they do not -/

/-- Where identifiers do not repeat, a reconcile keeps everything. -/
theorem kept_of_unique (hL : L.Lawful) (hunique : L.unique = true) (hready : c.ready = true)
    {now : Int} {excluded : Counter} : Kept L c ops now fresh excluded := by
  intro v h hcached
  rw [← or_assoc, mem_replaced_or_cut hL]
  by_cases hnewer : NewerInFresh L fresh v
  · exact Or.inr hnewer
  · obtain ⟨us, hrun⟩ := hL.run hready ops
    obtain ⟨rest, hsplit, hlater⟩ := h.split
    have hrun' := hrun.cached
    rw [hunique] at hrun'
    have hspec : copies L c ops v = [] ∨ copies L c ops v = [v] ∧
        c.mutationGeneration < (L.cached (c.applyOps ops)).journal (L.view.key v) := by
      show ((L.cached (c.applyOps ops)).items.filter _) = [] ∨
        ((L.cached (c.applyOps ops)).items.filter _) = [v] ∧ _
      rw [hrun']
      exact Journaled.run_unique (fun u hu => (hrun.times u hu).1) (hrun.updated.trans hsplit)
        hlater
    rcases hspec with hnone | ⟨hone, hjournal⟩
    · exact absurd hnone hcached
    · exact Or.inl ((mem_replacement_of_journaled h hL hready hnewer hone hjournal).mpr rfl)

/-! ## Nothing else -/

/-- What a reconcile holds is fresh or was updated. -/
theorem known (hL : L.Lawful) (hready : c.ready = true) (hc : CacheBounds c) {now : Int}
    {excluded : Counter} : Known L c ops now fresh excluded := by
  intro x hx
  have hx : x ∈ L.items ((c.applyOps ops).replacement fresh (some c.mutationGeneration)) := by
    unfold reconciled at hx
    rw [hL.replaced] at hx
    exact List.mem_of_mem_take hx
  by_cases hp : ∃ g, (c.applyOps ops).Preserving (some c.mutationGeneration) g
  · obtain ⟨g, hp⟩ := hp
    have hg := hp.1
    rw [PublicStateCache.replacement_of_preserving hp, hL.merged] at hx
    cases hg
    rcases View.mem_merge hx with hfresh | hoverlaid
    · exact Or.inl ⟨x, hfresh, rfl⟩
    · -- an entry that is younger than the generation belongs to an update
      have hjournal := of_decide_eq_true (List.mem_filter.mp hoverlaid).2
      obtain ⟨us, hrun⟩ := hL.run hready ops
      refine Or.inr ?_
      by_contra hnone
      push Not at hnone
      rw [← hrun.updated] at hnone
      have hle : (L.cached (c.applyOps ops)).journal (L.view.key x) ≤ c.mutationGeneration := by
        rw [hrun.cached]
        exact Journaled.journal_run_le (hc.journal L.kind) hnone
      exact absurd hjournal (Nat.not_lt.mpr hle)
  · rw [PublicStateCache.replacement_of_not_preserving fun g hg => hp ⟨g, hg⟩] at hx
    exact Or.inl ⟨x, hx, rfl⟩

end Merge

/-! ## The packet count -/

variable {c : PublicStateCache}

theorem packets_apply (h : c.ready = true) (now : Int) (data : PublicData) (n : Int)
    (hn : c.state.stats.packets = n) :
    some (c.apply now data).state.stats.packets = countStep (some n) (.apply now data) := by
  cases data with
  | node item =>
    simp only [PublicStateCache.apply, PublicStateCache.applyNode, h, Bool.not_true,
      Bool.false_eq_true, if_false, PublicStateCache.recordLiveUpdateLocked_stats]
    exact congrArg some hn
  | activity item =>
    simp only [PublicStateCache.apply, PublicStateCache.applyActivity, h, Bool.not_true,
      Bool.false_eq_true, if_false, PublicStateCache.recordLiveUpdateLocked_stats]
    have hkeep : ∀ (state : PublicLiveState) (heardAt : Int),
        (PublicStateCache.advanceServerTime state heardAt).stats.packets =
          state.stats.packets := fun state heardAt => by
      unfold PublicStateCache.advanceServerTime
      split <;> rfl
    show some (PublicStateCache.advanceServerTime _ _).stats.packets = _
    rw [hkeep]
    show some (if item.kind = "packet" ∨ item.kind = "route" then _ else _) =
      if item.kind = "packet" ∨ item.kind = "route" then _ else _
    rw [hn]
    split <;> rfl
  | pulse item =>
    simp only [PublicStateCache.apply, PublicStateCache.applyRoutePulse, h, Bool.not_true,
      Bool.false_eq_true, if_false, PublicStateCache.recordLiveUpdateLocked_stats]
    refine congrArg some (Eq.trans ?_ hn)
    show (PublicStateCache.advanceServerTime _ _).stats.packets = _
    unfold PublicStateCache.advanceServerTime
    split <;> rfl

theorem cacheBounds_applyOps (hc : CacheBounds c) (ops : List CacheOp) :
    CacheBounds (c.applyOps ops) := by
  induction ops using List.reverseRecOn with
  | nil => exact hc
  | append_singleton ops op ih =>
    rw [PublicStateCache.applyOps_concat]
    exact ih.applyOp op

/-- A count that a run sets is journaled and follows the packets. -/
theorem packets_applyOps (hready : c.ready = true) (ops : List CacheOp) {n : Int}
    (h : packetCountAfter ops = some n) :
    (c.applyOps ops).state.stats.packets = n ∧
      c.mutationGeneration < (c.applyOps ops).packetCountMutation := by
  induction ops using List.reverseRecOn generalizing n with
  | nil => cases h
  | append_singleton ops op ih =>
    have hrun := generation_le_applyOps hready ops
    have h : countStep (packetCountAfter ops) op = some n := by
      rw [← h]
      simp [packetCountAfter, List.foldl_append]
    rw [PublicStateCache.applyOps_concat]
    cases op with
    | setPacketCount count =>
      show ((c.applyOps ops).setPacketCount count).state.stats.packets = n ∧
        c.mutationGeneration < ((c.applyOps ops).setPacketCount count).packetCountMutation
      have h : (if 0 ≤ count then some count else packetCountAfter ops) = some n := h
      unfold PublicStateCache.setPacketCount
      by_cases hcount : 0 ≤ count
      · rw [if_pos hcount] at h
        cases h
        rw [if_neg (by simp [hrun.1]; omega)]
        exact ⟨rfl, Nat.lt_succ_of_le hrun.2⟩
      · rw [if_neg hcount] at h
        rw [if_pos (Or.inl (by omega))]
        exact ih h
    | apply now data =>
      have hmutation := packetCountMutation_apply (c.applyOps ops) now data
      show ((c.applyOps ops).apply now data).state.stats.packets = n ∧
        c.mutationGeneration < ((c.applyOps ops).apply now data).packetCountMutation
      rw [hmutation]
      cases hcount : packetCountAfter ops with
      | none =>
        rw [hcount] at h
        cases data <;> simp [countStep] at h
      | some m =>
        obtain ⟨hpackets, hset⟩ := ih hcount
        rw [hcount, ← packets_apply hrun.1 now data m hpackets] at h
        exact ⟨Option.some.inj h, hset⟩

/-! ## The result -/

/-- **What a reconcile keeps.** For every cache that calls can lead to and every
run of live updates before the replacement. -/
theorem reconciled_iff (filter : PublicIATAFilter) (hc : (cacheSystem filter).Reachable c)
    (hready : c.ready = true) (ops : List CacheOp) (now : Int) (fresh : PublicLiveState)
    (excluded : Counter) :
    Reconciled c ops now fresh excluded ↔
      AllSurvive activityList c ops fresh ∧ AllSurvive pulseList c ops fresh := by
  have hbounds := (cacheBounds filter).invariant hc
  have hactivity := kept_iff_survives ops fresh lawful_activityList rfl hready hbounds now excluded
  have hpulses := kept_iff_survives ops fresh lawful_pulseList rfl hready hbounds now excluded
  rw [← hactivity, ← hpulses]
  refine ⟨fun h => ⟨h.activity, h.pulses⟩, fun h => ?_⟩
  exact
    { nodes := kept_of_unique lawful_nodeList rfl hready
      activity := h.1
      pulses := h.2
      knownNodes := known lawful_nodeList hready hbounds
      knownActivity := known lawful_activityList hready hbounds
      knownPulses := known lawful_pulseList hready hbounds
      knownRoutes := fun route hroute => by
        have hroute : route ∈ ((c.applyOps ops).replacement fresh
            (some c.mutationGeneration)).routes := List.mem_of_mem_take hroute
        unfold PublicStateCache.replacement at hroute
        dsimp only at hroute
        split at hroute <;> exact hroute
      packets := fun n hn => by
        obtain ⟨hpackets, hset⟩ := packets_applyOps hready ops hn
        have hle := (cacheBounds_applyOps hbounds ops).packetCount
        have hp : (c.applyOps ops).Preserving (some c.mutationGeneration)
            c.mutationGeneration :=
          ⟨rfl, (generation_le_applyOps hready ops).1, by omega⟩
        show ((c.applyOps ops).replacement fresh _).stats.packets = n
        rw [PublicStateCache.replacement_of_preserving hp, ← hpackets]
        exact if_pos hset }

/-! ## Runs -/

section Runs

variable [DecidableEq α] (L : Listed α) (c : PublicStateCache) (ops : List CacheOp)
  (fresh : PublicLiveState)

instance (v : α) : Decidable (Latest L ops v) := by
  unfold Latest
  infer_instance

instance (v : α) : Decidable (Survives L c ops fresh v) := by
  unfold Survives NewerInFresh Forgotten Outdone
  infer_instance

omit [DecidableEq α] in
theorem allSurvive_iff : AllSurvive L c ops fresh ↔
    ∀ v ∈ L.updates ops, Latest L ops v → copies L c ops v ≠ [] → Survives L c ops fresh v :=
  ⟨fun h v _ => h v, fun h v hlatest => h v (List.mem_of_find?_eq_some hlatest) hlatest⟩

instance : Decidable (AllSurvive L c ops fresh) := decidable_of_iff _ (allSurvive_iff ..).symm

end Runs

def openCache : PublicStateCache := newPublicStateCache (newPublicIATAFilter [])

/-- A cache with one activity. -/
def warmCache : PublicStateCache :=
  openCache.replace 0
    { emptyPublicLiveState with recentActivity := [.sample "a" 1] } [] none

/-- The cached activity comes again, a count is set, and another activity follows. -/
def racingOps : List CacheOp :=
  [.apply 1 (.activity (.sample "a" 2)), .setPacketCount 7, .apply 2 (.activity (.sample "b" 3))]

theorem racingOps_reconciled : Reconciled warmCache racingOps 3 emptyPublicLiveState [] :=
  (reconciled_iff (newPublicIATAFilter []) (.step (.init rfl) trivial (a := .replace 0
    { emptyPublicLiveState with recentActivity := [.sample "a" 1] } [] none) rfl) rfl racingOps 3
    emptyPublicLiveState []).mpr (by decide +kernel)

/-- A full list in which one activity stands last but one. -/
def fullState : PublicLiveState :=
  { emptyPublicLiveState with
    recentActivity := List.replicate 238 (.sample "b" 1) ++ [.sample "a" 1, .sample "c" 1] }

/-- That activity comes again, and another one follows. -/
def forgettingOps : List CacheOp :=
  [.apply 1 (.activity (.sample "a" 2)), .apply 2 (.activity (.sample "d" 3))]

/-- The reconcile loses the activity that came again. -/
theorem repeated_activity_lost :
    ¬ ∀ (filter : PublicIATAFilter) (c : PublicStateCache), (cacheSystem filter).Reachable c →
      c.ready = true → ∀ (ops : List CacheOp) (now : Int) (fresh : PublicLiveState)
        (excluded : Counter), Reconciled c ops now fresh excluded := by
  intro h
  have hkept := (h (newPublicIATAFilter []) (openCache.replace 0 fullState [] none)
    (.step (.init rfl) trivial (a := .replace 0 fullState [] none) rfl) rfl forgettingOps 3
    emptyPublicLiveState []).activity (.sample "a" 2) (by decide +kernel) (by decide +kernel)
  rcases hkept with hlisted | hcut | ⟨f, hf, -⟩
  · exact absurd hlisted (by decide +kernel)
  · exact absurd hcut (by decide +kernel)
  · cases hf

end CartoLive.Theorems.Reconcile
