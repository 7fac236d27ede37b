import CartoLive.Api.SummaryCache

/-!
# Cached history summaries

Requests for summaries come at any time; one whose window is not in the cache computes it and
keeps it, while others are answered. Requests for the same window may compute it at once, and
keep what they have computed in any order.

## Main results

* `cached_answers_are_recent`: an answer is what the handler without a cache answers from a read
  of the store that was kept at most 20 seconds before.
-/

namespace CartoLive.Theorems.SummaryCaching

open CartoLive.Lib CartoLive.Go CartoLive.Live CartoLive.Store CartoLive.Api

/-! ## The server -/

/-- An answer, and when the cache was last looked at or changed for it. -/
structure SummaryAnswer where
  query : SummaryRequest
  nowMs : Int
  answeredAt : Int
  response : SummaryResponse

structure SummaryServer where
  cache : HistorySummaryCache
  clock : Int
  requests : ℕ
  /-- The requests that compute, by their numbers, with the time that they read first. -/
  computing : List (ℕ × SummaryRequest × Int)
  reads : List SummaryRead
  answers : List SummaryAnswer

inductive SummaryEvent
  /-- A request reads the clock, and then looks its window up. -/
  | ask (query : SummaryRequest) (began now : Int)
  /-- A request that computes has read the store, and keeps what it has computed. -/
  | finish (request : ℕ) (db : Database) (storeNow : Int) (fails : Bool) (now : Int)

def unixMilli (now : Int) : Int := now / 1000000

variable (f : PublicIATAFilter)

/-- The first half of the handler. -/
def ask (s : SummaryServer) (query : SummaryRequest) (began now : Int) : SummaryServer :=
  let nowMs := unixMilli began
  let s := { s with clock := now, requests := s.requests + 1 }
  match s.cache.get (summaryWindow query nowMs) now with
  | (cache, some response) =>
    { s with
      cache
      answers :=
        { query, nowMs, answeredAt := now, response := { response with serverTime := nowMs } } ::
          s.answers }
  | (cache, none) => { s with cache, computing := (s.requests, query, nowMs) :: s.computing }

/-- The second half; a request that panics has no answer. -/
def finish (s : SummaryServer) (request : ℕ) (query : SummaryRequest) (nowMs : Int)
    (read : SummaryRead) : SummaryServer :=
  let s :=
    { s with
      clock := read.keptAt, computing := s.computing.filter fun entry => entry.1 ≠ request }
  match uncachedSummary f read nowMs query with
  | none => s
  | some response =>
    { s with
      cache := s.cache.set (summaryWindow query nowMs) response read.keptAt
      reads := read :: s.reads
      answers := { query, nowMs, answeredAt := read.keptAt, response } :: s.answers }

/-- What an event does, if it can come. -/
def step (s : SummaryServer) : SummaryEvent → Option SummaryServer
  | .ask query began now =>
    if s.clock ≤ began ∧ began ≤ now then some (ask s query began now) else none
  | .finish request db storeNow fails now =>
    match Keyed.get Prod.fst request s.computing with
    | none => none
    | some (_, query, nowMs) =>
      if s.clock ≤ now then
        some (finish f s request query nowMs { db, storeNow, fails, keptAt := now })
      else none

def server : TSys SummaryServer SummaryEvent where
  init s := s.cache = newHistorySummaryCache summaryTTL ∧ s.computing = [] ∧ s.reads = [] ∧
    s.answers = []
  step := step f

/-! ## The invariant -/

/-- An answer is what a read gives without a cache, and is at most 20 seconds older than it. -/
def Answers (reads : List SummaryRead) (a : SummaryAnswer) : Prop :=
  ∃ read ∈ reads, read.keptAt ≤ a.answeredAt ∧ a.answeredAt ≤ read.keptAt + summaryTTL ∧
    uncachedSummary f read a.nowMs a.query = some a.response

structure Recent (s : SummaryServer) : Prop where
  cache : s.cache.Sound f s.reads
  past : ∀ read ∈ s.reads, read.keptAt ≤ s.clock
  answers : ∀ a ∈ s.answers, Answers f s.reads a

variable {f} {s : SummaryServer}

theorem Recent.ask (h : Recent f s) {query : SummaryRequest} {began now : Int}
    (hclock : s.clock ≤ now) : Recent f (ask s query began now) := by
  have hpast : ∀ read ∈ s.reads, read.keptAt ≤ now := fun read hread =>
    (h.past read hread).trans hclock
  obtain ⟨hsound, hfound⟩ := h.cache.get (summaryWindow query (unixMilli began)) now
  unfold SummaryCaching.ask
  dsimp only
  generalize s.cache.get (summaryWindow query (unixMilli began)) now = result at hsound hfound
  obtain ⟨cache, response⟩ := result
  cases response with
  | none => exact ⟨hsound, hpast, h.answers⟩
  | some response =>
    refine ⟨hsound, hpast, fun a ha => ?_⟩
    rcases List.mem_cons.mp ha with rfl | ha
    · obtain ⟨read, hread, nowMs, hsummary, hrecent⟩ := hfound response rfl
      refine ⟨read, hread, hpast read hread, hrecent, ?_⟩
      rw [uncachedSummary_eq]
      exact summaryOf_serverTime hsummary (unixMilli began)
    · exact h.answers a ha

theorem Recent.finish (h : Recent f s) {request : ℕ} {query : SummaryRequest} {nowMs : Int}
    {read : SummaryRead} (hclock : s.clock ≤ read.keptAt) :
    Recent f (finish f s request query nowMs read) := by
  have hpast : ∀ other ∈ s.reads, other.keptAt ≤ read.keptAt := fun other hother =>
    (h.past other hother).trans hclock
  unfold SummaryCaching.finish
  dsimp only
  cases hresponse : uncachedSummary f read nowMs query with
  | none => exact ⟨h.cache, hpast, h.answers⟩
  | some response =>
    have hsummary := hresponse
    rw [uncachedSummary_eq] at hsummary
    refine ⟨h.cache.set hsummary, fun other hother => ?_, fun a ha => ?_⟩
    · rcases List.mem_cons.mp hother with rfl | hother
      · exact le_rfl
      · exact hpast other hother
    · rcases List.mem_cons.mp ha with rfl | ha
      · refine ⟨read, List.mem_cons_self, le_rfl, ?_, hresponse⟩
        show read.keptAt ≤ read.keptAt + 20000000000
        omega
      · obtain ⟨other, hother, hbefore, hrecent, hanswer⟩ := h.answers a ha
        exact ⟨other, List.mem_cons_of_mem _ hother, hbefore, hrecent, hanswer⟩

theorem recent_of_reachable (h : (server f).Reachable s) : Recent f s := by
  have hinv : (server f).InductiveOn (fun _ _ => True) (Recent f) := by
    refine ⟨?_, fun s event s' hs _ hstep => ?_⟩
    · rintro s ⟨hcache, -, hreads, hanswers⟩
      refine ⟨?_, fun read hread => ?_, fun a ha => ?_⟩
      · rw [hcache, hreads]
        exact HistorySummaryCache.sound_new
      · rw [hreads] at hread
        cases hread
      · rw [hanswers] at ha
        cases ha
    · cases event with
      | ask query began now =>
        obtain ⟨⟨hbegan, hnow⟩, rfl⟩ := Option.ite_some_none_eq_some.mp hstep
        exact hs.ask (hbegan.trans hnow)
      | finish request db storeNow fails now =>
        simp only [server, step] at hstep
        split at hstep
        · cases hstep
        · obtain ⟨hclock, rfl⟩ := Option.ite_some_none_eq_some.mp hstep
          exact hs.finish hclock
  exact hinv.invariant h

/-- Every answer, from the cache or not, is what the handler without a cache would have answered
to the same query at the same time, from a read of the store that was kept at most 20 seconds
before; the cache never holds more than 65 windows. -/
theorem cached_answers_are_recent (h : (server f).Reachable s) :
    s.cache.entries.length ≤ 65 ∧ ∀ a ∈ s.answers, ∃ read ∈ s.reads,
      read.keptAt ≤ a.answeredAt ∧ a.answeredAt ≤ read.keptAt + summaryTTL ∧
        uncachedSummary f read a.nowMs a.query = some a.response := by
  have hrecent := recent_of_reachable h
  exact ⟨hrecent.cache.few, hrecent.answers⟩

/-- A server that has answered nothing, a while after the epoch. -/
def idleServer : SummaryServer where
  cache := newHistorySummaryCache summaryTTL
  clock := 1700000000000000000
  requests := 0
  computing := []
  reads := []
  answers := []

/-- A request for the last hour. -/
def lastHour : SummaryRequest := { fromQuery := none, toQuery := none, bucketQuery := none }

/-- Two requests in one second, of which the second finds what the first has kept. -/
def twoRequests : List SummaryEvent :=
  [.ask lastHour 1700000000000000000 1700000000000000000,
    .finish 1 emptyDatabase 1700000000000 false 1700000000400000000,
    .ask lastHour 1700000001000000000 1700000001000000000]

theorem cached_answers_are_recent_twice :
    ∃ s, (server (newPublicIATAFilter [])).Reachable s ∧ s.answers.length = 2 ∧
      s.reads.length = 1 ∧ ∀ a ∈ s.answers, ∃ read ∈ s.reads,
        uncachedSummary (newPublicIATAFilter []) read a.nowMs a.query = some a.response := by
  obtain ⟨s, hs, htest⟩ := TSys.exists_reachable_of_run (M := server (newPublicIATAFilter []))
    twoRequests (fun s => s.answers.length = 2 ∧ s.reads.length = 1)
    (s := idleServer) ⟨rfl, rfl, rfl, rfl⟩ (by decide +kernel)
  obtain ⟨hanswers, hreads⟩ := of_decide_eq_true htest
  refine ⟨s, hs, hanswers, hreads, fun a ha => ?_⟩
  obtain ⟨read, hread, -, -, hanswer⟩ := (cached_answers_are_recent hs).2 a ha
  exact ⟨read, hread, hanswer⟩

end CartoLive.Theorems.SummaryCaching
