import CartoLive.Lib.Holding
import CartoLive.Web.ServiceWorker

/-!
# What the service worker keeps and serves

Whatever requests are under way and wherever the browser ends the worker: the runtime cache is
over its limit only by what is about to be trimmed, the caches hold nothing of the interfaces but
the public snapshot, and an answer is one that the network gave to the same address.

## Main results

* `runtime_cache_bounded`: the size of the runtime cache.
* `caches_hold_public_responses`: what is in the caches of a release.
* `answers_come_from_network`: what requests are answered with.
-/

namespace CartoLive.Theorems.OfflineCaches

open CartoLive.Lib CartoLive.Web.ServiceWorker

variable {release : Release} {w w' : Worker}

/-! ## Named caches -/

theorem shellCache_ne_runtimeCache (release : Release) :
    release.shellCache ≠ release.runtimeCache := by
  intro h
  have hchars := congrArg String.toList h
  simp [Release.shellCache, Release.runtimeCache, cachePrefix] at hchars

theorem snapshotCache_ne_runtimeCache (release : Release) :
    release.snapshotCache ≠ release.runtimeCache := by
  intro h
  have hchars := congrArg String.toList h
  simp [Release.snapshotCache, Release.runtimeCache, cachePrefix] at hchars

theorem shellCache_ne_snapshotCache (release : Release) :
    release.shellCache ≠ release.snapshotCache := by
  intro h
  have hchars := congrArg String.toList h
  simp [Release.shellCache, Release.snapshotCache, cachePrefix] at hchars

theorem cacheEntries_setEntry (caches : Caches) (name other : String) (entries : List Entry) :
    cacheEntries (Keyed.setEntry caches name entries) other =
      if name = other then entries else cacheEntries caches other := by
  unfold cacheEntries
  rw [Keyed.get_setEntry]
  split <;> rfl

/-- What is found in a named cache is in the caches. -/
theorem exists_of_mem_cacheEntries {caches : Caches} {name : String} {entry : Entry}
    (h : entry ∈ cacheEntries caches name) : ∃ cache ∈ caches, entry ∈ cache.2 := by
  unfold cacheEntries at h
  cases hget : Keyed.get Prod.fst name caches with
  | none =>
    rw [hget] at h
    cases h
  | some cache =>
    rw [hget] at h
    exact ⟨cache, Keyed.mem_of_get hget, h⟩

/-- Caches that are deleted leave the others alone. -/
theorem cacheEntries_filter (caches : Caches) {name other : String} (hne : other ≠ name) :
    cacheEntries (caches.filter fun cache => cache.1 ≠ name) other = cacheEntries caches other := by
  unfold cacheEntries
  rw [Keyed.get_filter_key fun k => decide (k ≠ name)]
  exact congrArg (fun cache => (Option.map Prod.snd cache).getD []) (if_pos (decide_eq_true hne))

/-! ## The size of the runtime cache -/

/-- The deletions that are under way are of the oldest entries: the others are at most the limit,
and one for each task that is still to list. -/
structure Bounded (release : Release) (w : Worker) : Prop where
  doomed : ∀ name ∈ w.doomed, name ∉ release.caches
  nodup : ((w.runtime release).map Entry.url).Nodup
  kept : (DeferredTrim.kept Entry.url (w.deletes.map Prod.snd) (w.runtime release)).length ≤
    runtimeCacheLimit + w.tasks.countP FetchTask.isListing + w.lost

/-- A step beside the runtime cache and its deletions. -/
theorem Bounded.aside (h : Bounded release w) (hdoomed : ∀ name ∈ w'.doomed, name ∉ release.caches)
    (hruntime : w'.runtime release = w.runtime release) (hdeletes : w'.deletes = w.deletes)
    (hcount : w.tasks.countP FetchTask.isListing + w.lost ≤
      w'.tasks.countP FetchTask.isListing + w'.lost) : Bounded release w' := by
  refine ⟨hdoomed, hruntime ▸ h.nodup, ?_⟩
  rw [hruntime, hdeletes]
  have hkept := h.kept
  omega

/-- The tasks that are still to list, after a task has changed. -/
theorem countP_setPhase {id : ℕ} {task : FetchTask} (phase : Phase)
    (h : w.tasks[id]? = some task) :
    (w.setPhase id task phase).tasks.countP FetchTask.isListing +
        (if task.isListing then 1 else 0) =
      w.tasks.countP FetchTask.isListing +
        (if FetchTask.isListing { task with phase } then 1 else 0) :=
  countP_set_add _ h _

theorem isListing_eq_false {task : FetchTask} (h : ∀ response, task.phase ≠ .listing response) :
    task.isListing = false := by
  unfold FetchTask.isListing
  split
  · rename_i response hphase
    exact absurd hphase (h response)
  · rfl

theorem isListing_eq_true {task : FetchTask} {response : Response}
    (h : task.phase = .listing response) : task.isListing = true := by
  unfold FetchTask.isListing
  rw [h]

theorem Bounded.setPhase (h : Bounded release w) {id : ℕ} {task : FetchTask} {phase : Phase}
    (htask : w.tasks[id]? = some task) (hlisting : task.isListing = false) :
    Bounded release (w.setPhase id task phase) := by
  have hcount := countP_setPhase phase htask
  rw [hlisting] at hcount
  refine h.aside h.doomed rfl rfl ?_
  show _ ≤ _ + w.lost
  simp only [Bool.false_eq_true, if_false] at hcount
  omega

theorem Bounded.failed (h : Bounded release w) {id : ℕ} {task : FetchTask}
    (htask : w.tasks[id]? = some task) (hstep : w.failed id task = some w') :
    Bounded release w' := by
  unfold Worker.failed at hstep
  split at hstep
  case h_3 response hphase =>
    cases hstep
    have hcount := countP_setPhase task.caught htask
    rw [isListing_eq_true hphase, if_pos rfl] at hcount
    refine h.aside h.doomed rfl rfl ?_
    show _ ≤ (w.setPhase id task task.caught).tasks.countP _ + (w.lost + 1)
    omega
  all_goals
    rename_i hphase
    cases hstep
    try exact h.setPhase htask (isListing_eq_false fun r hr => by rw [hphase] at hr; cases hr)

theorem Bounded.resolveMatch (h : Bounded release w) {id : ℕ} {task : FetchTask}
    (htask : w.tasks[id]? = some task) (hstep : w.resolveMatch id task = some w') :
    Bounded release w' := by
  unfold Worker.resolveMatch at hstep
  split at hstep
  all_goals
    rename_i hphase
    cases hstep
    try exact h.setPhase htask (isListing_eq_false fun r hr => by rw [hphase] at hr; cases hr)

theorem Bounded.resolveFetch (h : Bounded release w) {id : ℕ} {task : FetchTask}
    {response : Response} (htask : w.tasks[id]? = some task)
    (hstep : w.resolveFetch id task response = some w') : Bounded release w' := by
  unfold Worker.resolveFetch at hstep
  split at hstep
  · rename_i hphase
    cases hstep
    have hset : Bounded release (w.setPhase id task
        (if response.ok ∧ task.strategy ≠ .bypass then .putting response else .answered response)) :=
      h.setPhase htask (isListing_eq_false fun r hr => by rw [hphase] at hr; cases hr)
    exact hset.aside hset.doomed rfl rfl (Nat.le_refl _)
  · cases hstep

theorem Bounded.resolvePut (h : Bounded release w) {id : ℕ} {task : FetchTask}
    (htask : w.tasks[id]? = some task) (hstep : w.resolvePut release id task = some w') :
    Bounded release w' := by
  unfold Worker.resolvePut at hstep
  split at hstep
  swap
  · cases hstep
  rename_i response hphase
  obtain ⟨cacheName, -, rfl⟩ := Option.map_eq_some_iff.mp hstep
  have hold : task.isListing = false :=
    isListing_eq_false fun r hr => by rw [hphase] at hr; cases hr
  dsimp only
  by_cases hname : cacheName = release.runtimeCache
  · -- The entry is one more, and so are the tasks that are to list.
    subst hname
    rw [if_neg (fun hne => hne rfl)]
    have hcount := countP_setPhase (.listing response) htask
    have hnew : FetchTask.isListing { task with phase := .listing response } = true :=
      isListing_eq_true rfl
    rw [hold, hnew] at hcount
    have hruntime : cacheEntries (putIn w.caches release.runtimeCache task.request.url response)
        release.runtimeCache =
        DeferredTrim.put Entry.url ⟨task.request.url, response⟩ (w.runtime release) := by
      unfold putIn
      rw [cacheEntries_setEntry, if_pos rfl]
      rfl
    refine ⟨h.doomed, ?_, ?_⟩
    · show ((cacheEntries _ _).map Entry.url).Nodup
      rw [Worker.setPhase, hruntime]
      exact DeferredTrim.nodup_put h.nodup _
    · show (DeferredTrim.kept Entry.url (w.deletes.map Prod.snd) (cacheEntries _ _)).length ≤
        runtimeCacheLimit + (w.setPhase id task (.listing response)).tasks.countP _ + w.lost
      change (DeferredTrim.kept Entry.url _ (cacheEntries (putIn _ _ _ _) _)).length ≤ _
      rw [hruntime]
      have hput : (DeferredTrim.kept Entry.url (w.deletes.map Prod.snd) (DeferredTrim.put Entry.url
          ⟨task.request.url, response⟩ (w.runtime release))).length ≤
          (DeferredTrim.kept Entry.url (w.deletes.map Prod.snd) (w.runtime release)).length + 1 :=
        DeferredTrim.length_kept_put_le _
      have hkept := h.kept
      simp only [Bool.false_eq_true, if_false, if_true] at hcount
      omega
  · rw [if_pos hname]
    have hset : Bounded release (w.setPhase id task (.answered response)) := h.setPhase htask hold
    refine hset.aside hset.doomed ?_ rfl (Nat.le_refl _)
    show cacheEntries (putIn _ _ _ _) _ = cacheEntries w.caches _
    unfold putIn
    rw [cacheEntries_setEntry, if_neg hname]

theorem Bounded.resolveKeys (h : Bounded release w) {id : ℕ} {task : FetchTask}
    (hstep : w.resolveKeys release id task = some w') : Bounded release w' := by
  unfold Worker.resolveKeys at hstep
  split at hstep
  swap
  · cases hstep
  dsimp only at hstep
  split at hstep
  · cases hstep
    refine ⟨h.doomed, h.nodup, ?_⟩
    show (DeferredTrim.kept Entry.url ((w.deletes ++ _).map Prod.snd) (w.runtime release)).length ≤ _
    have hdooms : ((w.deletes ++ (((w.runtime release).map Entry.url).take
        (((w.runtime release).map Entry.url).length - runtimeCacheLimit)).map
          fun key => (id, key)).map Prod.snd) =
        w.deletes.map Prod.snd ++ ((w.runtime release).take
          ((w.runtime release).length - runtimeCacheLimit)).map Entry.url := by
      rw [List.map_append, List.map_map, List.length_map, ← List.map_take]
      exact congrArg _ (List.map_id _)
    rw [hdooms]
    have htrim : (DeferredTrim.kept Entry.url (w.deletes.map Prod.snd ++ ((w.runtime release).take
        ((w.runtime release).length - runtimeCacheLimit)).map Entry.url) (w.runtime release)).length ≤
        runtimeCacheLimit := DeferredTrim.length_kept_trim_le runtimeCacheLimit
    show _ ≤ runtimeCacheLimit + _ + w.lost
    omega
  · rename_i hsmall
    cases hstep
    refine ⟨h.doomed, h.nodup, ?_⟩
    have hlength := List.length_filter_le (fun e : Entry => decide (e.url ∉ w.deletes.map Prod.snd))
      (w.runtime release)
    rw [List.length_map] at hsmall
    show (DeferredTrim.kept Entry.url (w.deletes.map Prod.snd) (w.runtime release)).length ≤
      runtimeCacheLimit + _ + w.lost
    unfold DeferredTrim.kept
    omega

/-- The deletions that are left when one is made or lost. -/
theorem mem_deletes_erase {deletes : List (ℕ × Url)} {id : ℕ} {url key : Url}
    (h : key ∈ deletes.map Prod.snd) : key = url ∨ key ∈ (deletes.erase (id, url)).map Prod.snd := by
  obtain ⟨⟨other, key⟩, hmem, rfl⟩ := List.mem_map.mp h
  by_cases hkey : key = url
  · exact .inl hkey
  · have hne : (other, key) ≠ (id, url) := fun heq => hkey (congrArg Prod.snd heq)
    exact .inr (List.mem_map.mpr ⟨_, (List.mem_erase_of_ne hne).mpr hmem, rfl⟩)

theorem Bounded.delete (h : Bounded release w) {id : ℕ} {url : Url}
    (hstep : w.step release (.delete id url) = some w') : Bounded release w' := by
  simp only [Worker.step] at hstep
  split at hstep <;> cases hstep
  have hruntime : cacheEntries (deleteIn w.caches release.runtimeCache url) release.runtimeCache =
      DeferredTrim.delete Entry.url url (w.runtime release) := by
    unfold deleteIn
    rw [cacheEntries_setEntry, if_pos rfl]
    rfl
  refine ⟨h.doomed, ?_, ?_⟩
  · show ((cacheEntries _ _).map Entry.url).Nodup
    rw [hruntime]
    exact DeferredTrim.nodup_delete h.nodup url
  · show (DeferredTrim.kept Entry.url _ (cacheEntries _ _)).length ≤ _
    rw [hruntime]
    exact Nat.le_trans (DeferredTrim.length_kept_delete_le fun _ hkey => mem_deletes_erase hkey)
      h.kept

theorem Bounded.failDelete (h : Bounded release w) {id : ℕ} {url : Url}
    (hstep : w.step release (.failDelete id url) = some w') : Bounded release w' := by
  simp only [Worker.step] at hstep
  split at hstep
  swap
  · cases hstep
  obtain ⟨task, htask, rfl⟩ := Option.map_eq_some_iff.mp hstep
  have hlost : Bounded release
      { w with deletes := w.deletes.erase (id, url), lost := w.lost + 1 } := by
    refine ⟨h.doomed, h.nodup, ?_⟩
    have hkept := h.kept
    have herase : (DeferredTrim.kept Entry.url ((w.deletes.erase (id, url)).map Prod.snd)
        (w.runtime release)).length ≤
        (DeferredTrim.kept Entry.url (w.deletes.map Prod.snd) (w.runtime release)).length + 1 :=
      DeferredTrim.length_kept_erase_le h.nodup fun _ hkey => mem_deletes_erase hkey
    show (DeferredTrim.kept Entry.url ((w.deletes.erase (id, url)).map Prod.snd)
      (w.runtime release)).length ≤
        runtimeCacheLimit + w.tasks.countP FetchTask.isListing + (w.lost + 1)
    omega
  split
  · rename_i hphase
    exact hlost.setPhase htask (isListing_eq_false fun r hr => by rw [hphase] at hr; cases hr)
  · exact hlost

theorem countP_ended (tasks : List FetchTask) :
    (tasks.map FetchTask.ended).countP FetchTask.isListing = 0 := by
  refine List.countP_eq_zero.mpr fun task htask => ?_
  obtain ⟨old, -, rfl⟩ := List.mem_map.mp htask
  have hended : old.ended.isListing = false := by
    refine isListing_eq_false fun r hr => ?_
    unfold FetchTask.ended at hr
    split at hr
    · rename_i hphase
      rw [hphase] at hr
      cases hr
    · cases hr
  rw [hended]
  exact Bool.false_ne_true

theorem bounded_inductive (release : Release) :
    (serviceWorker release).InductiveOn (fun _ _ => True) (Bounded release) where
  init := by
    rintro w ⟨hcaches, htasks, hdeletes, hdoomed, -, -⟩
    have hruntime : w.runtime release = [] := by
      show cacheEntries w.caches release.runtimeCache = []
      unfold cacheEntries
      rw [Keyed.get_eq_none_iff.mpr]
      · rfl
      · intro hmem
        obtain ⟨cache, hcache, hname⟩ := List.mem_map.mp hmem
        exact hcaches cache hcache (hname ▸ List.mem_cons_of_mem _ List.mem_cons_self)
    refine ⟨fun name hname => ?_, ?_, ?_⟩
    · rw [hdoomed] at hname
      cases hname
    · rw [hruntime]
      exact List.nodup_nil
    · rw [hruntime]
      exact Nat.zero_le _
  step := by
    intro w act w' h _ hstep
    change w.step release act = some w' at hstep
    cases act with
    | install root index =>
      simp only [Worker.step] at hstep
      split at hstep <;> cases hstep
      refine h.aside h.doomed ?_ rfl (Nat.le_refl _)
      show cacheEntries (putIn (putIn _ _ _ _) _ _ _) _ = cacheEntries w.caches _
      unfold putIn
      rw [cacheEntries_setEntry, if_neg (shellCache_ne_runtimeCache release), cacheEntries_setEntry,
        if_neg (shellCache_ne_runtimeCache release)]
    | activate =>
      cases hstep
      refine h.aside (fun name hname => ?_) rfl rfl (Nat.le_refl _)
      exact (of_decide_eq_true (List.mem_filter.mp hname).2).2
    | deleteCache name =>
      simp only [Worker.step] at hstep
      split at hstep <;> cases hstep
      rename_i hname
      refine h.aside (fun other hother => h.doomed other (List.mem_of_mem_erase hother)) ?_ rfl
        (Nat.le_refl _)
      refine cacheEntries_filter w.caches fun heq => h.doomed name hname ?_
      exact heq ▸ List.mem_cons_of_mem _ List.mem_cons_self
    | fetch request =>
      cases hstep
      refine h.aside h.doomed rfl rfl ?_
      show _ ≤ (w.tasks ++ _).countP _ + w.lost
      rw [List.countP_append]
      omega
    | matched id =>
      obtain ⟨task, htask, hstep⟩ := Option.bind_eq_some_iff.mp hstep
      exact h.resolveMatch htask hstep
    | respond id response =>
      obtain ⟨task, htask, hstep⟩ := Option.bind_eq_some_iff.mp hstep
      exact h.resolveFetch htask hstep
    | put id =>
      obtain ⟨task, htask, hstep⟩ := Option.bind_eq_some_iff.mp hstep
      exact h.resolvePut htask hstep
    | list id =>
      obtain ⟨task, -, hstep⟩ := Option.bind_eq_some_iff.mp hstep
      exact h.resolveKeys hstep
    | delete id url => exact h.delete hstep
    | finish id =>
      obtain ⟨task, htask, hstep⟩ := Option.bind_eq_some_iff.mp hstep
      split at hstep
      · rename_i hphase
        split at hstep <;> cases hstep
        exact h.setPhase htask (isListing_eq_false fun r hr => by rw [hphase] at hr; cases hr)
      · cases hstep
    | fail id =>
      obtain ⟨task, htask, hstep⟩ := Option.bind_eq_some_iff.mp hstep
      exact h.failed htask hstep
    | failDelete id url => exact h.failDelete hstep
    | terminate =>
      cases hstep
      refine h.aside (fun name hname => (by cases hname)) rfl rfl ?_
      show _ ≤ _ + (w.lost + w.tasks.countP FetchTask.isListing)
      rw [countP_ended]
      omega

/-- The runtime cache is over its limit at most by the puts that are to be listed, the deletions
that are under way and what was lost. -/
theorem runtime_cache_bounded (hw : (serviceWorker release).Reachable w) :
    (w.runtime release).length ≤ runtimeCacheLimit + w.tasks.countP FetchTask.isListing +
      w.deletes.length + w.lost := by
  have h := (bounded_inductive release).invariant hw
  have hall := DeferredTrim.length_le_kept_add h.nodup (w.deletes.map Prod.snd)
  have hkept := h.kept
  rw [List.length_map] at hall
  omega

/-! ### A run -/

/-- A release with nothing cached. -/
def emptyWorker : Worker :=
  { caches := [], tasks := [], deletes := [], doomed := [], network := [], lost := 0 }

def sampleRelease : Release := { origin := "https://map.example", releaseId := "1.0-abc" }

def assetRequest (pathname : String) : Request :=
  { method := "GET", url := sampleRelease.localUrl pathname, mode := "cors" }

def okResponse (body : String) : Response := { status := 200, body }

/-- Two assets are put before the first of them is listed, and then the first is asked for
again. -/
def twoAssets : List Act :=
  [.install (okResponse "root") (okResponse "index"), .fetch (assetRequest "/assets/a.js"),
    .matched 0, .respond 0 (okResponse "a"), .put 0, .fetch (assetRequest "/assets/b.js"),
    .matched 1, .respond 1 (okResponse "b"), .put 1, .list 0,
    .fetch (assetRequest "/assets/a.js"), .matched 2]

theorem emptyWorker_init (release : Release) : (serviceWorker release).init emptyWorker :=
  ⟨fun _ h => (by cases h), rfl, rfl, rfl, rfl, rfl⟩

theorem runtime_cache_bounded_two : ∃ w, (serviceWorker sampleRelease).Reachable w ∧
    (w.runtime sampleRelease).length = 2 ∧
    (w.runtime sampleRelease).length ≤ runtimeCacheLimit + 1 := by
  obtain ⟨w, hw, htest⟩ := TSys.exists_reachable_of_run (M := serviceWorker sampleRelease) twoAssets
    (fun w => decide ((w.runtime sampleRelease).length = 2 ∧
      w.tasks.countP FetchTask.isListing = 1 ∧ w.deletes = [] ∧ w.lost = 0))
    (emptyWorker_init sampleRelease) (by decide +kernel)
  obtain ⟨hlength, hlisting, hdeletes, hlost⟩ := of_decide_eq_true htest
  have hbound := runtime_cache_bounded hw
  rw [hlisting, hdeletes, hlost] at hbound
  exact ⟨w, hw, hlength, hbound⟩

/-! ## What is kept -/

/-- An address of the origin, and none of the interfaces but the public snapshot. -/
structure Public (release : Release) (url : Url) : Prop where
  origin : url.origin = release.origin
  api : startsWith url.pathname "/api/" = true → url.pathname = snapshotURL
  probes : url.pathname ≠ "/healthz" ∧ url.pathname ≠ "/readyz" ∧ url.pathname ≠ "/metrics"
  socket : startsWith url.pathname "/ws" = false

/-- What a cache of a release holds. -/
structure Keeps (release : Release) (name : String) (entry : Entry) : Prop where
  isPublic : Public release entry.url
  ok : entry.response.ok = true
  runtime : name = release.runtimeCache → entry.url.search = "" ∧ entry.url.pathname ≠ snapshotURL
  snapshot : name = release.snapshotCache ↔ entry.url.pathname = snapshotURL

theorem public_of_not_bypass {request : Request} (h : shouldBypassCache release request = false) :
    Public release request.url ∧ (request.mode ≠ "navigate" → request.url.search = "") := by
  unfold shouldBypassCache at h
  split at h
  · cases h
  split at h
  · cases h
  rename_i horigin
  split at h
  · cases h
  rename_i hsearch
  split at h
  · cases h
  rename_i hapi
  split at h
  · cases h
  rename_i hprobes
  rw [not_or, not_or] at hprobes
  refine ⟨⟨not_not.mp horigin, fun hstart => ?_, hprobes, h⟩, fun hmode => ?_⟩
  · by_contra hne
    exact hapi ⟨hstart, hne⟩
  · by_contra hne
    exact hsearch ⟨hne, hmode⟩

/-- A response that is put is of those that the cache is for. -/
theorem keeps_of_put {request : Request} {response : Response} {name : String}
    (hname : (strategyFor release request).cacheName release = some name)
    (hok : response.ok = true) : Keeps release name ⟨request.url, response⟩ := by
  unfold strategyFor at hname
  split at hname
  · cases hname
  rename_i hbypass
  obtain ⟨hpublic, hsearch⟩ := public_of_not_bypass (Bool.not_eq_true _ ▸ hbypass)
  have hruntime := snapshotCache_ne_runtimeCache release
  have hshell := shellCache_ne_snapshotCache release
  split at hname
  · rename_i hsnapshot
    cases hname
    exact ⟨hpublic, hok, fun h => absurd h hruntime, fun _ => hsnapshot.2, fun _ => rfl⟩
  · rename_i hother
    have hpath : request.url.pathname ≠ snapshotURL := fun h => hother ⟨hpublic.origin, h⟩
    split at hname
    · cases hname
      exact ⟨hpublic, hok, fun h => absurd h (shellCache_ne_runtimeCache release),
        fun h => absurd h hshell, fun h => absurd h hpath⟩
    · rename_i hmode
      cases hname
      exact ⟨hpublic, hok, fun _ => ⟨hsearch hmode, hpath⟩, fun h => absurd h.symm hruntime,
        fun h => absurd h hpath⟩

/-- What a request may be answered with: what the network answered to the same address, for
navigations what it answered to the index, and the text of the worker itself. -/
def Answer (release : Release) (network : List Entry) (task : FetchTask) (response : Response) :
    Prop :=
  ⟨task.request.url, response⟩ ∈ network ∨
    shouldBypassCache release task.request = false ∧
      (response = offline ∨
        task.request.mode = "navigate" ∧ ⟨release.localUrl "/index.html", response⟩ ∈ network)

/-- What a task has seen of the network. -/
def Honest (release : Release) (network : List Entry) (task : FetchTask) : Prop :=
  match task.phase with
  | .fetching | .rejected => True
  | .matching => task.strategy ≠ .bypass
  | .putting response | .listing response | .deleting response =>
    task.strategy ≠ .bypass ∧ response.ok = true ∧ ⟨task.request.url, response⟩ ∈ network
  | .recalling => task.strategy ≠ .bypass
  | .recallingFallback cached =>
    task.strategy ≠ .bypass ∧ ∀ response ∈ cached, ⟨task.request.url, response⟩ ∈ network
  | .answered response => Answer release network task response

structure Sound (release : Release) (w : Worker) : Prop where
  stored : ∀ cache ∈ w.caches, ∀ entry ∈ cache.2, entry ∈ w.network
  keeps : ∀ name ∈ release.caches, ∀ entry ∈ cacheEntries w.caches name, Keeps release name entry
  strategy : ∀ task ∈ w.tasks, task.strategy = strategyFor release task.request
  honest : ∀ task ∈ w.tasks, Honest release w.network task

theorem strategyFor_eq_bypass_iff {request : Request} :
    strategyFor release request = .bypass ↔ shouldBypassCache release request = true := by
  unfold strategyFor
  split
  · simp [*]
  · rename_i h
    refine ⟨fun heq => ?_, fun h' => absurd h' h⟩
    split at heq
    · cases heq
    · split at heq <;> cases heq

/-- Only navigations have a fallback, and it is the index. -/
theorem strategyFor_fallback {request : Request} {name : String} {url : Url}
    (h : strategyFor release request = .networkFirst name (some url)) :
    request.mode = "navigate" ∧ url = release.localUrl "/index.html" := by
  unfold strategyFor at h
  split at h
  · cases h
  split at h
  · cases h
  split at h
  · rename_i hmode
    cases h
    exact ⟨hmode, rfl⟩
  · cases h

theorem Honest.mono {network network' : List Entry} {task : FetchTask}
    (h : Honest release network task) (hsub : ∀ entry ∈ network, entry ∈ network') :
    Honest release network' task := by
  unfold Honest at h ⊢
  split
  all_goals
    rename_i hphase
    rw [hphase] at h
  case h_1 | h_2 => trivial
  case h_3 | h_7 => exact h
  case h_4 | h_5 | h_6 => exact ⟨h.1, h.2.1, hsub _ h.2.2⟩
  case h_8 => exact ⟨h.1, fun response hresponse => hsub _ (h.2 response hresponse)⟩
  case h_9 => exact h.imp (hsub _) fun h => ⟨h.1, h.2.imp_right fun h => ⟨h.1, hsub _ h.2⟩⟩

theorem mem_of_matchCaches {caches : Caches} {url : Url} {response : Response}
    (h : matchCaches caches url = some response) : ∃ cache ∈ caches, ⟨url, response⟩ ∈ cache.2 := by
  obtain ⟨cache, hcache, hfound⟩ := List.exists_of_findSome?_eq_some h
  obtain ⟨entry, hentry, rfl⟩ := Option.map_eq_some_iff.mp hfound
  have hurl := Keyed.key_of_get hentry
  refine ⟨cache, hcache, ?_⟩
  rw [← hurl]
  exact Keyed.mem_of_get hentry

theorem mem_putIn {caches : Caches} {name : String} {url : Url} {response : Response}
    {cache : String × List Entry} {entry : Entry} (hcache : cache ∈ putIn caches name url response)
    (hentry : entry ∈ cache.2) :
    entry = ⟨url, response⟩ ∨ ∃ old ∈ caches, entry ∈ old.2 := by
  rcases Keyed.mem_setEntry hcache with rfl | ⟨hold, -⟩
  · rcases DeferredTrim.mem_put.mp hentry with rfl | ⟨hin, -⟩
    · exact .inl rfl
    · exact .inr (exists_of_mem_cacheEntries hin)
  · exact .inr ⟨cache, hold, hentry⟩

theorem Sound.setPhase (h : Sound release w) {id : ℕ} {task : FetchTask} {phase : Phase}
    (htask : w.tasks[id]? = some task) (hhonest : Honest release w.network { task with phase }) :
    Sound release (w.setPhase id task phase) := by
  have hmem := List.mem_of_getElem? htask
  refine ⟨h.stored, h.keeps, fun other hother => ?_, fun other hother => ?_⟩
  · rcases List.mem_or_eq_of_mem_set hother with hold | rfl
    · exact h.strategy other hold
    · exact h.strategy task hmem
  · rcases List.mem_or_eq_of_mem_set hother with hold | rfl
    · exact h.honest other hold
    · exact hhonest

theorem shouldBypassCache_eq_false {task : FetchTask}
    (hstrategy : task.strategy = strategyFor release task.request) (h : task.strategy ≠ .bypass) :
    shouldBypassCache release task.request = false :=
  Bool.not_eq_true _ ▸ fun hbypass => h (hstrategy.trans (strategyFor_eq_bypass_iff.mpr hbypass))

theorem honest_caught {network : List Entry} {task : FetchTask}
    (hstrategy : task.strategy = strategyFor release task.request) :
    Honest release network { task with phase := task.caught } := by
  unfold FetchTask.caught
  split
  · trivial
  · rename_i hfirst
    refine .inr ⟨shouldBypassCache_eq_false hstrategy fun h => ?_, .inl rfl⟩
    rw [hfirst] at h
    cases h
  · rename_i hfirst
    show task.strategy ≠ .bypass
    rw [hfirst]
    exact fun h => (by cases h)

theorem Sound.failed (h : Sound release w) {id : ℕ} {task : FetchTask}
    (htask : w.tasks[id]? = some task) (hstep : w.failed id task = some w') :
    Sound release w' := by
  have hcaught := h.setPhase htask (honest_caught (h.strategy task (List.mem_of_getElem? htask)))
  unfold Worker.failed at hstep
  split at hstep <;> cases hstep
  case h_3 => exact ⟨hcaught.stored, hcaught.keeps, hcaught.strategy, hcaught.honest⟩
  all_goals
    first
    | exact hcaught
    | exact h.setPhase htask trivial

theorem Sound.resolveMatch (h : Sound release w) {id : ℕ} {task : FetchTask}
    (htask : w.tasks[id]? = some task) (hstep : w.resolveMatch id task = some w') :
    Sound release w' := by
  have hmem := List.mem_of_getElem? htask
  have hold := h.honest task hmem
  have hfound : ∀ {url response}, matchCaches w.caches url = some response →
      ⟨url, response⟩ ∈ w.network := fun hmatch => by
    obtain ⟨cache, hcache, hentry⟩ := mem_of_matchCaches hmatch
    exact h.stored cache hcache _ hentry
  unfold Worker.resolveMatch at hstep
  split at hstep
  · cases hstep
    split
    · rename_i cached hmatch
      exact h.setPhase htask (.inl (hfound hmatch))
    · exact h.setPhase htask trivial
  · rename_i hphase
    cases hstep
    unfold Honest at hold
    rw [hphase] at hold
    exact h.setPhase htask ⟨hold, fun response hresponse => hfound hresponse⟩
  · rename_i cached hphase
    cases hstep
    unfold Honest at hold
    rw [hphase] at hold
    refine h.setPhase htask ?_
    show Answer release w.network task _
    have hpublic := shouldBypassCache_eq_false (h.strategy task hmem) hold.1
    cases cached with
    | some response => exact .inl (hold.2 response rfl)
    | none =>
      refine .inr ⟨hpublic, ?_⟩
      split
      · rename_i name url hstrategy
        obtain ⟨hmode, hurl⟩ := strategyFor_fallback ((h.strategy task hmem).symm.trans hstrategy)
        cases hmatch : matchCaches w.caches url with
        | none => exact .inl rfl
        | some response => exact .inr ⟨hmode, hurl ▸ hfound hmatch⟩
      · exact .inl rfl
  · cases hstep

theorem Sound.resolveFetch (h : Sound release w) {id : ℕ} {task : FetchTask} {response : Response}
    (htask : w.tasks[id]? = some task) (hstep : w.resolveFetch id task response = some w') :
    Sound release w' := by
  unfold Worker.resolveFetch at hstep
  split at hstep
  swap
  · cases hstep
  cases hstep
  have hsub : ∀ entry ∈ w.network, entry ∈ w.network ++ [⟨task.request.url, response⟩] :=
    fun entry hentry => List.mem_append_left _ hentry
  have hnew : (⟨task.request.url, response⟩ : Entry) ∈
      w.network ++ [⟨task.request.url, response⟩] := List.mem_append_right _ List.mem_cons_self
  have hgrown : Sound release
      { w with network := w.network ++ [⟨task.request.url, response⟩] } :=
    ⟨fun cache hcache entry hentry => hsub _ (h.stored cache hcache entry hentry), h.keeps,
      h.strategy, fun other hother => (h.honest other hother).mono hsub⟩
  refine hgrown.setPhase htask ?_
  split
  · rename_i hput
    exact ⟨hput.2, hput.1, hnew⟩
  · exact .inl hnew

theorem Sound.resolvePut (h : Sound release w) {id : ℕ} {task : FetchTask}
    (htask : w.tasks[id]? = some task) (hstep : w.resolvePut release id task = some w') :
    Sound release w' := by
  have hmem := List.mem_of_getElem? htask
  have hold := h.honest task hmem
  unfold Worker.resolvePut at hstep
  split at hstep
  swap
  · cases hstep
  rename_i response hphase
  obtain ⟨cacheName, hname, rfl⟩ := Option.map_eq_some_iff.mp hstep
  unfold Honest at hold
  rw [hphase] at hold
  obtain ⟨hstrategy, hok, hnetwork⟩ := hold
  have hput : Sound release
      { w with caches := putIn w.caches cacheName task.request.url response } := by
    refine ⟨fun cache hcache entry hentry => ?_, fun name hrelease entry hentry => ?_, h.strategy,
      h.honest⟩
    · rcases mem_putIn hcache hentry with rfl | ⟨old, holdCache, hin⟩
      · exact hnetwork
      · exact h.stored old holdCache entry hin
    · change entry ∈ cacheEntries (putIn _ _ _ _) name at hentry
      unfold putIn at hentry
      rw [cacheEntries_setEntry] at hentry
      split at hentry
      · rename_i hsame
        subst hsame
        rcases DeferredTrim.mem_put.mp hentry with rfl | ⟨hin, -⟩
        · exact keeps_of_put ((h.strategy task hmem) ▸ hname) hok
        · exact h.keeps _ hrelease entry hin
      · exact h.keeps name hrelease entry hentry
  refine hput.setPhase htask ?_
  split
  · exact .inl hnetwork
  · exact ⟨hstrategy, hok, hnetwork⟩

theorem Sound.resolveKeys (h : Sound release w) {id : ℕ} {task : FetchTask}
    (htask : w.tasks[id]? = some task) (hstep : w.resolveKeys release id task = some w') :
    Sound release w' := by
  have hold := h.honest task (List.mem_of_getElem? htask)
  unfold Worker.resolveKeys at hstep
  split at hstep
  swap
  · cases hstep
  rename_i response hphase
  unfold Honest at hold
  rw [hphase] at hold
  dsimp only at hstep
  split at hstep
  · cases hstep
    have hset : Sound release (w.setPhase id task (.deleting response)) := h.setPhase htask hold
    exact ⟨hset.stored, hset.keeps, hset.strategy, hset.honest⟩
  · cases hstep
    exact h.setPhase htask (.inl hold.2.2)

theorem Sound.delete (h : Sound release w) (url : Url) :
    Sound release { w with caches := deleteIn w.caches release.runtimeCache url } := by
  refine ⟨fun cache hcache entry hentry => ?_, fun name hname entry hentry => ?_, h.strategy,
    h.honest⟩
  · rcases Keyed.mem_setEntry hcache with rfl | ⟨hold, -⟩
    · obtain ⟨old, hold, hin⟩ := exists_of_mem_cacheEntries (List.mem_of_mem_filter hentry)
      exact h.stored old hold entry hin
    · exact h.stored cache hold entry hentry
  · change entry ∈ cacheEntries (deleteIn _ _ _) name at hentry
    unfold deleteIn at hentry
    rw [cacheEntries_setEntry] at hentry
    split at hentry
    · rename_i hsame
      subst hsame
      exact h.keeps _ hname entry (List.mem_of_mem_filter hentry)
    · exact h.keeps name hname entry hentry

/-- The addresses of the shell. -/
theorem keeps_shell (release : Release) {pathname : String}
    (hpath : pathname = "/" ∨ pathname = "/index.html") {response : Response}
    (hok : response.ok = true) :
    Keeps release release.shellCache ⟨release.localUrl pathname, response⟩ := by
  have hplain : startsWith pathname "/api/" = false ∧
      (pathname ≠ "/healthz" ∧ pathname ≠ "/readyz" ∧ pathname ≠ "/metrics") ∧
      startsWith pathname "/ws" = false ∧ pathname ≠ snapshotURL := by
    rcases hpath with rfl | rfl <;> decide +kernel
  obtain ⟨hapi, hprobes, hsocket, hsnapshot⟩ := hplain
  refine ⟨⟨rfl, fun h => ?_, hprobes, hsocket⟩, hok, fun h => ?_, fun h => ?_, fun h => ?_⟩
  · exact absurd (hapi.symm.trans h) Bool.false_ne_true
  · exact absurd h (shellCache_ne_runtimeCache release)
  · exact absurd h (shellCache_ne_snapshotCache release)
  · exact absurd h hsnapshot

theorem Sound.install (h : Sound release w) {root index : Response}
    (hstep : w.step release (.install root index) = some w') : Sound release w' := by
  simp only [Worker.step] at hstep
  split at hstep <;> cases hstep
  rename_i hok
  refine ⟨fun cache hcache entry hentry => ?_, fun name hname entry hentry => ?_, h.strategy,
    fun task htask => (h.honest task htask).mono fun entry hentry => List.mem_append_left _ hentry⟩
  · rcases mem_putIn hcache hentry with rfl | ⟨cache', hcache', hentry'⟩
    · exact List.mem_append_right _ (List.mem_cons_of_mem _ List.mem_cons_self)
    · rcases mem_putIn hcache' hentry' with rfl | ⟨old, hold, hin⟩
      · exact List.mem_append_right _ List.mem_cons_self
      · exact List.mem_append_left _ (h.stored old hold entry hin)
  · change entry ∈ cacheEntries (putIn (putIn _ _ _ _) _ _ _) name at hentry
    unfold putIn at hentry
    rw [cacheEntries_setEntry] at hentry
    split at hentry
    · rename_i hsame
      subst hsame
      rcases DeferredTrim.mem_put.mp hentry with rfl | ⟨hin, -⟩
      · exact keeps_shell release (.inr rfl) hok.2
      · rw [cacheEntries_setEntry, if_pos rfl] at hin
        rcases DeferredTrim.mem_put.mp hin with rfl | ⟨hin, -⟩
        · exact keeps_shell release (.inl rfl) hok.1
        · exact h.keeps _ hname entry hin
    · rename_i hother
      rw [cacheEntries_setEntry, if_neg hother] at hentry
      exact h.keeps name hname entry hentry

theorem Sound.deleteCache (h : Sound release w) (name : String) :
    Sound release { w with caches := w.caches.filter fun cache => cache.1 ≠ name } := by
  refine ⟨fun cache hcache => h.stored cache (List.mem_of_mem_filter hcache),
    fun other hother entry hentry => ?_, h.strategy, h.honest⟩
  change entry ∈ cacheEntries (w.caches.filter _) other at hentry
  by_cases hsame : other = name
  · subst hsame
    unfold cacheEntries at hentry
    rw [Keyed.get_filter_key fun k => decide (k ≠ other)] at hentry
    simp at hentry
  · rw [cacheEntries_filter _ hsame] at hentry
    exact h.keeps other hother entry hentry

theorem sound_inductive (release : Release) :
    (serviceWorker release).InductiveOn (fun _ _ => True) (Sound release) where
  init := by
    rintro w ⟨hcaches, htasks, -, -, hnetwork, -⟩
    refine ⟨fun cache hcache entry hentry => ?_, fun name hname entry hentry => ?_,
      fun task htask => ?_, fun task htask => ?_⟩
    · rw [hnetwork]
      exact List.mem_flatMap.mpr ⟨cache, hcache, hentry⟩
    · unfold cacheEntries at hentry
      cases hget : Keyed.get Prod.fst name w.caches with
      | none =>
        rw [hget] at hentry
        cases hentry
      | some cache =>
        have hkey := Keyed.key_of_get hget
        exact absurd hname (hkey ▸ hcaches cache (Keyed.mem_of_get hget))
    · rw [htasks] at htask
      cases htask
    · rw [htasks] at htask
      cases htask
  step := by
    intro w act w' h _ hstep
    change w.step release act = some w' at hstep
    cases act with
    | install root index => exact h.install hstep
    | activate =>
      cases hstep
      exact ⟨h.stored, h.keeps, h.strategy, h.honest⟩
    | deleteCache name =>
      simp only [Worker.step] at hstep
      split at hstep <;> cases hstep
      have hdeleted := h.deleteCache name
      exact ⟨hdeleted.stored, hdeleted.keeps, hdeleted.strategy, hdeleted.honest⟩
    | fetch request =>
      cases hstep
      refine ⟨h.stored, h.keeps, fun task htask => ?_, fun task htask => ?_⟩
      · rcases List.mem_append.mp htask with hold | hnew
        · exact h.strategy task hold
        · rw [List.mem_singleton.mp hnew]
      · rcases List.mem_append.mp htask with hold | hnew
        · exact h.honest task hold
        · rw [List.mem_singleton.mp hnew]
          by_cases hfirst : strategyFor release request = .cacheFirst
          · rw [if_pos hfirst, hfirst]
            exact fun hbypass => (by cases hbypass)
          · rw [if_neg hfirst]
            trivial
    | matched id =>
      obtain ⟨task, htask, hstep⟩ := Option.bind_eq_some_iff.mp hstep
      exact h.resolveMatch htask hstep
    | respond id response =>
      obtain ⟨task, htask, hstep⟩ := Option.bind_eq_some_iff.mp hstep
      exact h.resolveFetch htask hstep
    | put id =>
      obtain ⟨task, htask, hstep⟩ := Option.bind_eq_some_iff.mp hstep
      exact h.resolvePut htask hstep
    | list id =>
      obtain ⟨task, htask, hstep⟩ := Option.bind_eq_some_iff.mp hstep
      exact h.resolveKeys htask hstep
    | delete id url =>
      simp only [Worker.step] at hstep
      split at hstep <;> cases hstep
      have hdeleted := h.delete url
      exact ⟨hdeleted.stored, hdeleted.keeps, hdeleted.strategy, hdeleted.honest⟩
    | finish id =>
      obtain ⟨task, htask, hstep⟩ := Option.bind_eq_some_iff.mp hstep
      split at hstep
      · rename_i response hphase
        split at hstep <;> cases hstep
        have hold := h.honest task (List.mem_of_getElem? htask)
        unfold Honest at hold
        rw [hphase] at hold
        exact h.setPhase htask (.inl hold.2.2)
      · cases hstep
    | fail id =>
      obtain ⟨task, htask, hstep⟩ := Option.bind_eq_some_iff.mp hstep
      exact h.failed htask hstep
    | failDelete id url =>
      simp only [Worker.step] at hstep
      split at hstep
      swap
      · cases hstep
      obtain ⟨task, htask, rfl⟩ := Option.map_eq_some_iff.mp hstep
      have hlost : Sound release
          { w with deletes := w.deletes.erase (id, url), lost := w.lost + 1 } :=
        ⟨h.stored, h.keeps, h.strategy, h.honest⟩
      split
      · exact hlost.setPhase htask (honest_caught (h.strategy task (List.mem_of_getElem? htask)))
      · exact hlost
    | terminate =>
      cases hstep
      refine ⟨h.stored, h.keeps, fun task htask => ?_, fun task htask => ?_⟩
      all_goals obtain ⟨old, hold, rfl⟩ := List.mem_map.mp htask
      · unfold FetchTask.ended
        split <;> exact h.strategy old hold
      · unfold FetchTask.ended
        split
        · exact h.honest old hold
        · trivial

/-- The caches of a release hold answers of the network to public addresses, each cache its own
kind. -/
theorem caches_hold_public_responses (hw : (serviceWorker release).Reachable w) {name : String}
    (hname : name ∈ release.caches) {entry : Entry} (hentry : entry ∈ cacheEntries w.caches name) :
    Keeps release name entry ∧ entry ∈ w.network := by
  have h := (sound_inductive release).invariant hw
  obtain ⟨cache, hcache, hin⟩ := exists_of_mem_cacheEntries hentry
  exact ⟨h.keeps name hname entry hentry, h.stored cache hcache entry hin⟩

theorem caches_hold_public_responses_two : ∃ w, (serviceWorker sampleRelease).Reachable w ∧
    ∃ entry ∈ w.runtime sampleRelease, Keeps sampleRelease sampleRelease.runtimeCache entry ∧
      entry ∈ w.network := by
  obtain ⟨w, hw, htest⟩ := TSys.exists_reachable_of_run (M := serviceWorker sampleRelease) twoAssets
    (fun w => decide ((⟨sampleRelease.localUrl "/assets/a.js", okResponse "a"⟩ : Entry) ∈
      w.runtime sampleRelease))
    (emptyWorker_init sampleRelease) (by decide +kernel)
  exact ⟨w, hw, _, of_decide_eq_true htest, caches_hold_public_responses hw
    (List.mem_cons_of_mem _ List.mem_cons_self) (of_decide_eq_true htest)⟩

/-- Whatever was cached, deleted, lost or ended in between. -/
theorem answers_come_from_network (hw : (serviceWorker release).Reachable w) {task : FetchTask}
    (htask : task ∈ w.tasks) {response : Response} (hphase : task.phase = .answered response) :
    Answer release w.network task response := by
  have h := ((sound_inductive release).invariant hw).honest task htask
  unfold Honest at h
  rw [hphase] at h
  exact h

/-- The second request for an asset is answered from the cache. -/
theorem answers_come_from_network_two : ∃ w, (serviceWorker sampleRelease).Reachable w ∧
    ∃ task, w.tasks[2]? = some task ∧ Answer sampleRelease w.network task (okResponse "a") := by
  obtain ⟨w, hw, htest⟩ := TSys.exists_reachable_of_run (M := serviceWorker sampleRelease) twoAssets
    (fun w => decide ((w.tasks[2]?).map FetchTask.phase = some (.answered (okResponse "a"))))
    (emptyWorker_init sampleRelease) (by decide +kernel)
  obtain ⟨task, htask, hphase⟩ := Option.map_eq_some_iff.mp (of_decide_eq_true htest)
  exact ⟨w, hw, task, htask,
    answers_come_from_network hw (List.mem_of_getElem? htask) hphase⟩

end CartoLive.Theorems.OfflineCaches
