import CartoLive.Api.PublicHistory
import CartoLive.Lib.Joined
import CartoLive.Lib.Keyed
import CartoLive.Lib.TSys

/-!
# The cache of history summaries

`historySummaryCache` of `routes.go`, and the handler `publicHistorySummary` in the two steps
between which other requests run: it looks its window up, and it keeps what it has computed.
Times are in nanoseconds; `UnixMilli` of a time is in milliseconds.

## Main results

* `publicHistorySummary_eq`: the uncached handler is a function of the window and of the read.
* `historySummaryCacheKey_inj`: windows are told apart by their keys.
* `Sound`: each entry is what one of the reads gives for the window of its key.
-/

namespace CartoLive.Api

open CartoLive.Lib CartoLive.Go CartoLive.Live CartoLive.Store

/-! ## The cache -/

structure SummaryCacheEntry where
  expiresAt : Int
  response : SummaryResponse
  deriving DecidableEq

structure HistorySummaryCache where
  ttl : Int
  entries : List (String × SummaryCacheEntry)

/-- `20 * time.Second`. -/
def summaryTTL : Int := 20000000000

def newHistorySummaryCache (ttl : Int) : HistorySummaryCache where
  ttl := if ttl ≤ 0 then summaryTTL else ttl
  entries := []

/-- The window and the width of the buckets of a summary. -/
structure SummaryWindow where
  fromMs : Int
  toMs : Int
  bucketMs : Int
  deriving DecidableEq

def historySummaryCacheKey (w : SummaryWindow) : String :=
  toString w.fromMs ++ ":" ++ toString w.toMs ++ ":" ++ toString w.bucketMs

namespace HistorySummaryCache

/-- `Get`. -/
def get (c : HistorySummaryCache) (w : SummaryWindow) (now : Int) :
    HistorySummaryCache × Option SummaryResponse :=
  let key := historySummaryCacheKey w
  let missed := { c with entries := c.entries.filter fun entry => entry.1 ≠ key }
  match Keyed.get Prod.fst key c.entries with
  | none => (missed, none)
  | some entry =>
    if entry.2.expiresAt < now then (missed, none) else (c, some entry.2.response)

/-- `Set`. -/
def set (c : HistorySummaryCache) (w : SummaryWindow) (response : SummaryResponse) (now : Int) :
    HistorySummaryCache :=
  let entries := if 64 < c.entries.length then [] else c.entries
  { c with
    entries := Keyed.setEntry entries (historySummaryCacheKey w)
      { expiresAt := now + c.ttl, response } }

end HistorySummaryCache

/-! ## The handler -/

/-- The queries of a request. -/
structure SummaryRequest where
  fromQuery : Option Int
  toQuery : Option Int
  bucketQuery : Option Int
  deriving DecidableEq

/-- The window that a query is answered for. -/
def summaryWindow (q : SummaryRequest) (nowMs : Int) : SummaryWindow :=
  let (fromMs, toMs) := publicHistoryWindow q.fromQuery q.toQuery nowMs
  let bucketMs := summaryBucketMs (wrapInt64 (toMs - fromMs)) q.bucketQuery
  let (fromMs, toMs) := canonicalHistorySummaryWindow fromMs toMs
  { fromMs, toMs, bucketMs }

/-- A read of the store, and when what was computed from it was kept. -/
structure SummaryRead where
  db : Database
  storeNow : Int
  fails : Bool
  keptAt : Int

/-- The handler without a cache, on a read. -/
def uncachedSummary (f : PublicIATAFilter) (read : SummaryRead) (nowMs : Int) (q : SummaryRequest) :
    Option SummaryResponse :=
  publicHistorySummary f read.db (fun _ _ _ => none) read.fails nowMs read.storeNow q.fromQuery
    q.toQuery q.bucketQuery

/-- What a read gives for a window. -/
def summaryOf (f : PublicIATAFilter) (read : SummaryRead) (w : SummaryWindow) (nowMs : Int) :
    Option SummaryResponse :=
  (emptyBuckets w.fromMs w.toMs w.bucketMs).map fun buckets =>
    match summaryRows f read.db read.storeNow w.fromMs w.toMs w.bucketMs read.fails with
    | none =>
      { serverTime := nowMs, fromMs := w.fromMs, toMs := w.toMs, bucketMs := w.bucketMs, buckets }
    | some rows =>
      { serverTime := nowMs, fromMs := w.fromMs, toMs := w.toMs, bucketMs := w.bucketMs
        buckets := rows.foldl (addRow f) buckets }

theorem uncachedSummary_eq (f : PublicIATAFilter) (read : SummaryRead) (nowMs : Int)
    (q : SummaryRequest) :
    uncachedSummary f read nowMs q = summaryOf f read (summaryWindow q nowMs) nowMs := by
  unfold uncachedSummary publicHistorySummary summaryWindow
  generalize publicHistoryWindow q.fromQuery q.toQuery nowMs = window
  obtain ⟨fromMs, toMs⟩ := window
  dsimp only
  generalize summaryBucketMs (wrapInt64 (toMs - fromMs)) q.bucketQuery = bucketMs
  generalize canonicalHistorySummaryWindow fromMs toMs = rounded
  rfl

theorem summaryOf_serverTime {f : PublicIATAFilter} {read : SummaryRead} {w : SummaryWindow}
    {nowMs : Int} {response : SummaryResponse} (h : summaryOf f read w nowMs = some response)
    (laterMs : Int) :
    summaryOf f read w laterMs = some { response with serverTime := laterMs } := by
  obtain ⟨buckets, hbuckets, rfl⟩ := Option.map_eq_some_iff.mp h
  unfold summaryOf
  rw [hbuckets]
  cases summaryRows f read.db read.storeNow w.fromMs w.toMs w.bucketMs read.fails with
  | none => rfl
  | some rows => rfl

/-! ## Keys -/

theorem colon_notMem_toString (n : Int) : ':' ∉ (toString n).toList := by
  intro h
  rcases mem_toString n ':' h with hdigit | hminus
  · exact absurd hdigit (by decide)
  · exact absurd hminus (by decide)

theorem historySummaryCacheKey_inj {w w' : SummaryWindow}
    (h : historySummaryCacheKey w = historySummaryCacheKey w') : w = w' := by
  have hlist : ∀ w : SummaryWindow, (historySummaryCacheKey w).toList =
      (toString w.fromMs).toList ++ ':' :: ((toString w.toMs).toList ++
        ':' :: (toString w.bucketMs).toList) := by
    intro w
    simp [historySummaryCacheKey]
  have heq := congrArg String.toList h
  rw [hlist, hlist] at heq
  obtain ⟨hfrom, hrest⟩ := append_cons_inj (colon_notMem_toString _) (colon_notMem_toString _) heq
  obtain ⟨hto, hbucket⟩ :=
    append_cons_inj (colon_notMem_toString _) (colon_notMem_toString _) hrest
  cases w
  cases w'
  rw [SummaryWindow.mk.injEq]
  exact ⟨toString_inj (String.toList_inj.mp hfrom), toString_inj (String.toList_inj.mp hto),
    toString_inj (String.toList_inj.mp hbucket)⟩

/-! ## What the cache holds -/

/-- Each entry is what one of the reads gave for the window of its key, kept for the ttl from
then on; there are 65 entries at most. -/
structure HistorySummaryCache.Sound (f : PublicIATAFilter) (reads : List SummaryRead)
    (c : HistorySummaryCache) : Prop where
  ttl : c.ttl = summaryTTL
  few : c.entries.length ≤ 65
  nodup : (c.entries.map Prod.fst).Nodup
  kept : ∀ entry ∈ c.entries, ∃ w read nowMs, entry.1 = historySummaryCacheKey w ∧ read ∈ reads ∧
    entry.2.expiresAt = read.keptAt + summaryTTL ∧
    summaryOf f read w nowMs = some entry.2.response

namespace HistorySummaryCache

variable {f : PublicIATAFilter} {reads : List SummaryRead} {c : HistorySummaryCache}

theorem sound_new : (newHistorySummaryCache summaryTTL).Sound f [] :=
  ⟨by decide, Nat.zero_le _, List.nodup_nil, fun _ hentry => absurd hentry List.not_mem_nil⟩

theorem Sound.filter (h : c.Sound f reads) (p : String × SummaryCacheEntry → Bool) :
    { c with entries := c.entries.filter p : HistorySummaryCache }.Sound f reads := by
  refine ⟨h.ttl, (List.length_filter_le _ _).trans h.few, ?_, fun entry hentry =>
    h.kept entry (List.mem_of_mem_filter hentry)⟩
  exact h.nodup.sublist (List.filter_sublist.map Prod.fst)

/-- A lookup finds what a read of the last 20 seconds gives for the window. -/
theorem Sound.get (h : c.Sound f reads) (w : SummaryWindow) (now : Int) :
    (c.get w now).1.Sound f reads ∧ ∀ response, (c.get w now).2 = some response →
      ∃ read ∈ reads, ∃ nowMs, summaryOf f read w nowMs = some response ∧
        now ≤ read.keptAt + summaryTTL := by
  unfold HistorySummaryCache.get
  dsimp only
  split
  · exact ⟨h.filter _, fun response hnone => by cases hnone⟩
  · rename_i entry hget
    split
    · exact ⟨h.filter _, fun response hnone => by cases hnone⟩
    · rename_i hfresh
      refine ⟨h, fun response hresponse => ?_⟩
      obtain ⟨w', read, nowMs, hkey, hread, hexpires, hsummary⟩ :=
        h.kept entry (Keyed.mem_of_get hget)
      have hsame : w = w' :=
        historySummaryCacheKey_inj ((Keyed.key_of_get hget).symm.trans hkey)
      subst hsame
      rw [Option.some.inj hresponse] at hsummary
      exact ⟨read, hread, nowMs, hsummary, by omega⟩

/-- What is kept is what the read gave. -/
theorem Sound.set (h : c.Sound f reads) {w : SummaryWindow} {read : SummaryRead} {nowMs : Int}
    {response : SummaryResponse} (hsummary : summaryOf f read w nowMs = some response) :
    (c.set w response read.keptAt).Sound f (read :: reads) := by
  have hentries : ∀ entry ∈ (if 64 < c.entries.length then [] else c.entries),
      entry ∈ c.entries := by
    intro entry hentry
    split at hentry
    · cases hentry
    · exact hentry
  have hnodup : ((if 64 < c.entries.length then [] else c.entries).map Prod.fst).Nodup := by
    split
    · exact List.nodup_nil
    · exact h.nodup
  have hfew : (if 64 < c.entries.length then [] else c.entries).length ≤ 64 := by
    split
    · exact Nat.zero_le _
    · omega
  refine ⟨h.ttl, ?_, Keyed.nodup_setEntry hnodup _ _, fun entry hentry => ?_⟩
  · have hlength : ∀ (entries : List (String × SummaryCacheEntry)) key value,
        (Keyed.setEntry entries key value).length ≤ entries.length + 1 := by
      intro entries key value
      unfold Keyed.setEntry
      split
      · rw [List.length_map]
        omega
      · rw [List.length_append, List.length_singleton]
    exact (hlength _ _ _).trans (by omega)
  · rcases Keyed.mem_setEntry hentry with rfl | ⟨hold, -⟩
    · exact ⟨w, read, nowMs, rfl, List.mem_cons_self, by rw [h.ttl], hsummary⟩
    · obtain ⟨w', read', nowMs', hkey, hread, hexpires, hsummary'⟩ := h.kept entry (hentries _ hold)
      exact ⟨w', read', nowMs', hkey, List.mem_cons_of_mem _ hread, hexpires, hsummary'⟩

end HistorySummaryCache

end CartoLive.Api
