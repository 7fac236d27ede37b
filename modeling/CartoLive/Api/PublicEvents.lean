import CartoLive.Store.PublicEvents

/-!
# The recovery endpoint

`publicEvents` of `public_extended.go`: the page of durable events after a
client's cursor, or the demand to reset. The handler reads the sequence bounds
first and the page afterwards, so the two reads are two arguments here and other
transactions may stand between them.
-/

namespace CartoLive.Api

open CartoLive.Go CartoLive.Live CartoLive.Store

/-- `publicEventsMaxLimit`. -/
def publicEventsMaxLimit : Int := 1000

/-- What the handlers read of `Server`: the feature switch and the region test,
which is absent when no allow-list is installed. -/
structure Server where
  publicEventsEnabled : Bool
  publicAllowsIATA : Option PublicIATAFilter

/-- The query string; a number is absent when it is missing or does not parse,
and `window` is `(0, 0)` when neither bound is given. -/
structure PublicEventsQuery where
  limit : Option Int
  afterSeq : Option Int
  window : Int × Int
  region : String
  payloadTypeName : String
  eventType : String
  messageOnly : Bool

/-- The region that `filterPublicEvents` tests. -/
def eventRegion (event : PublicEvent) : String :=
  upperTrim (firstNonEmpty [event.region, event.iata])

/-- The test of `filterPublicEvents`. -/
def Server.admits (server : Server) (event : PublicEvent) : Bool :=
  match server.publicAllowsIATA with
  | none => true
  | some allowed => eventRegion event = "" || allowed.allows (eventRegion event)

/-- `filterPublicEvents`. -/
def filterPublicEvents (server : Server) (events : List PublicEvent) : List PublicEvent :=
  events.filter server.admits

/-- `publicSeqCursor`. -/
def publicSeqCursor (seq : Int) : String := if seq ≤ 0 then "" else Nat.repr seq.toNat

/-- The page size that `publicEvents` asks the store for. -/
def eventsLimit (query : PublicEventsQuery) : Int :=
  let limit := query.limit.getD 500
  if limit ≤ 0 ∨ publicEventsMaxLimit < limit then 500 else limit

/-- The demand to reset. -/
def resetResponse (now : Int) (bounds : Int × Int) : PublicEventsResponse :=
  { serverTime := now
    oldestSeq := bounds.1
    latestSeq := bounds.2
    events := []
    nextCursor := publicSeqCursor bounds.2
    resetRequired := true }

/-- When the bounds alone make the handler demand a reset. -/
def resetNeeded (bounds : Int × Int) (afterSeq : Int) : Bool :=
  let belowRetainedFloor := 0 < bounds.1 && afterSeq < bounds.1 - 1
  afterSeq ≤ 0 || belowRetainedFloor || bounds.2 < afterSeq

/-- The answer with a page. -/
def pageResponse (server : Server) (now : Int) (bounds : Int × Int) (afterSeq : Int)
    (page : List PublicEvent × Int) : PublicEventsResponse :=
  let events := filterPublicEvents server page.1
  let responseCursor :=
    if page.2 = 0 then (events.getLast?.map PublicEvent.seq).getD afterSeq else page.2
  { serverTime := now
    oldestSeq := bounds.1
    latestSeq := bounds.2
    events := events
    nextCursor := publicSeqCursor responseCursor
    resetRequired := false }

/-- The store query of `publicEvents`. -/
def eventsFilter (query : PublicEventsQuery) : PublicEventTable.PublicEventFilter :=
  { afterSeq := query.afterSeq.getD 0
    since := query.window.1
    until_ := query.window.2
    limit := eventsLimit query
    region := query.region
    payloadTypeName := query.payloadTypeName
    eventType := query.eventType
    messageOnly := query.messageOnly }

/-- `publicEvents`, with the bounds it read and the table its page comes from. -/
def publicEvents (server : Server) (now : Int) (query : PublicEventsQuery) (bounds : Int × Int)
    (t : PublicEventTable) : Except (Nat × String) PublicEventsResponse :=
  if !server.publicEventsEnabled then .error (404, "public events disabled")
  else
    let afterSeq := query.afterSeq.getD 0
    if resetNeeded bounds afterSeq then .ok (resetResponse now bounds)
    else .ok (pageResponse server now bounds afterSeq (t.listPublicEventsAfter (eventsFilter query)))

/-- The request of a client that recovers: a cursor and a page size, nothing
else. -/
def recoveryQuery (afterSeq limit : Int) : PublicEventsQuery :=
  { limit := some limit
    afterSeq := some afterSeq
    window := (0, 0)
    region := ""
    payloadTypeName := ""
    eventType := ""
    messageOnly := false }

/-! ## Facts about pages -/

/-- The number of rows on a full page of a recovery request. -/
def pageSize (limit : Int) : Nat := PublicEventTable.pageLimit (eventsLimit (recoveryQuery 0 limit))

theorem pageSize_eq_toNat {limit : Int} (h₁ : 1 ≤ limit) (h₂ : limit ≤ 1000) :
    pageSize limit = limit.toNat := by
  have hlimit : eventsLimit (recoveryQuery 0 limit) = limit := by
    refine if_neg ?_
    show ¬(limit ≤ 0 ∨ 1000 < limit)
    omega
  rw [pageSize, hlimit, PublicEventTable.pageLimit, if_neg (by omega)]

theorem pageSize_pos (limit : Int) : 0 < pageSize limit := by
  by_cases h : 1 ≤ limit ∧ limit ≤ 1000
  · rw [pageSize_eq_toNat h.1 h.2]
    omega
  · have hlimit : eventsLimit (recoveryQuery 0 limit) = 500 := by
      refine if_pos ?_
      show limit ≤ 0 ∨ 1000 < limit
      omega
    rw [pageSize, hlimit]
    decide

/-- The rows that a recovery request selects: those beyond its cursor. -/
theorem matches_recoveryQuery (afterSeq limit : Int) (row : PublicEvent) :
    (eventsFilter (recoveryQuery afterSeq limit)).matches row = decide (afterSeq < row.seq) := by
  have hempty : upperTrim "" = "" ∧ trimSpace "" = "" := by decide
  simp [PublicEventTable.PublicEventFilter.matches, eventsFilter, recoveryQuery, hempty]
  rfl

/-- The rows beyond a cursor, as a page shows them. -/
def rowsAfter (t : PublicEventTable) (afterSeq : Int) : List PublicEvent :=
  (t.rows.filter fun row => afterSeq < row.seq).map PublicEventTable.scanPublicEvent

/-- The page of a recovery request: the next rows up to a full page, with a
cursor exactly when a row is left beyond them. -/
theorem listPublicEventsAfter_page (t : PublicEventTable) (afterSeq limit : Int) :
    t.listPublicEventsAfter (eventsFilter (recoveryQuery afterSeq limit)) =
      ((rowsAfter t afterSeq).take (pageSize limit),
        if pageSize limit < (rowsAfter t afterSeq).length then
          (((rowsAfter t afterSeq).take (pageSize limit)).getLast?.map PublicEvent.seq).getD 0
        else 0) := by
  have hlimit : PublicEventTable.pageLimit (eventsFilter (recoveryQuery afterSeq limit)).limit =
      pageSize limit := rfl
  have hmatch : (eventsFilter (recoveryQuery afterSeq limit)).matches =
      fun row => decide (afterSeq < row.seq) :=
    funext (matches_recoveryQuery afterSeq limit)
  simp only [PublicEventTable.listPublicEventsAfter, hlimit, hmatch, List.map_take]
  rw [← rowsAfter, List.take_take, Nat.min_eq_left (Nat.le_succ _), List.length_take]
  congr 1
  split <;> split <;> first | rfl | omega

theorem listPublicEventsAfter_recoveryQuery (t : PublicEventTable) {afterSeq limit : Int}
    (h₁ : 1 ≤ limit) (h₂ : limit ≤ 1000) :
    t.listPublicEventsAfter (eventsFilter (recoveryQuery afterSeq limit)) =
      ((rowsAfter t afterSeq).take limit.toNat,
        if limit.toNat < (rowsAfter t afterSeq).length then
          (((rowsAfter t afterSeq).take limit.toNat).getLast?.map PublicEvent.seq).getD 0
        else 0) := by
  rw [listPublicEventsAfter_page, pageSize_eq_toNat h₁ h₂]

theorem pairwise_rowsAfter (t : PublicEventTable) (afterSeq : Int) :
    (rowsAfter t afterSeq).Pairwise fun a b => a.seq < b.seq :=
  List.pairwise_map.mpr (t.ascending.filter _)

theorem mem_rowsAfter {t : PublicEventTable} {afterSeq : Int} {row : PublicEvent}
    (h : row ∈ rowsAfter t afterSeq) : afterSeq < row.seq ∧ row.seq ≤ t.latestPublicSeq := by
  obtain ⟨stored, hmem, rfl⟩ := List.mem_map.mp h
  obtain ⟨hin, hafter⟩ := List.mem_filter.mp hmem
  have hle := PublicEventTable.seq_le_latestPublicSeq hin
  exact ⟨of_decide_eq_true hafter, hle⟩

/-- The stored rows beyond a cursor are the rows that pages are cut from. -/
theorem scan_mem_rowsAfter {t : PublicEventTable} {afterSeq : Int} {row : PublicEvent}
    (h : row ∈ t.rows) (hafter : afterSeq < row.seq) :
    PublicEventTable.scanPublicEvent row ∈ rowsAfter t afterSeq :=
  List.mem_map_of_mem (List.mem_filter.mpr ⟨h, decide_eq_true hafter⟩)

/-- A page holds every row up to any row it holds. -/
theorem mem_page_of_le {t : PublicEventTable} {afterSeq : Int} {n : Nat} {row shown : PublicEvent}
    (h : row ∈ rowsAfter t afterSeq) (hshown : shown ∈ (rowsAfter t afterSeq).take n)
    (hle : row.seq ≤ shown.seq) : row ∈ (rowsAfter t afterSeq).take n := by
  rw [← List.take_append_drop n (rowsAfter t afterSeq)] at h
  rcases List.mem_append.mp h with hin | hbeyond
  · exact hin
  · have hasc := pairwise_rowsAfter t afterSeq
    rw [← List.take_append_drop n (rowsAfter t afterSeq)] at hasc
    have := (List.pairwise_append.mp hasc).2.2 shown hshown row hbeyond
    omega

/-- A page without a cursor holds every row beyond the cursor it was asked for. -/
theorem page_of_no_cursor {t : PublicEventTable} {afterSeq limit : Int}
    (h : (t.listPublicEventsAfter (eventsFilter (recoveryQuery afterSeq limit))).2 = 0) :
    (rowsAfter t afterSeq).take (pageSize limit) = rowsAfter t afterSeq := by
  refine List.take_of_length_le (Nat.le_of_not_lt fun hlong => ?_)
  rw [listPublicEventsAfter_page] at h
  have hne : (rowsAfter t afterSeq).take (pageSize limit) ≠ [] := by
    rw [ne_eq, List.take_eq_nil_iff, not_or]
    exact ⟨Nat.ne_of_gt (pageSize_pos limit), fun hnil => by simp [hnil] at hlong⟩
  simp only [hlong, if_true, List.getLast?_eq_some_getLast hne, Option.map_some,
    Option.getD_some] at h
  obtain ⟨stored, hmem, hscan⟩ := List.mem_map.mp (List.mem_of_mem_take (List.getLast_mem hne))
  have hpos := (t.bounded stored (List.mem_of_mem_filter hmem)).1
  rw [← hscan, PublicEventTable.seq_scanPublicEvent] at h
  omega

/-- The last row beyond a cursor has the latest sequence. -/
theorem seq_of_getLast_rowsAfter {t : PublicEventTable} {afterSeq : Int} {row : PublicEvent}
    (h : (rowsAfter t afterSeq).getLast? = some row) : row.seq = t.latestPublicSeq := by
  have hmem := List.mem_of_getLast? h
  obtain ⟨hafter, hle⟩ := mem_rowsAfter hmem
  obtain ⟨stored, hs, hscan⟩ := List.mem_map.mp hmem
  obtain ⟨last, hlast⟩ : ∃ last, t.rows.getLast? = some last :=
    ⟨_, List.getLast?_eq_some_getLast (List.ne_nil_of_mem (List.mem_of_mem_filter hs))⟩
  have hlatest := PublicEventTable.latestPublicSeq_eq_getLast hlast
  have hin : PublicEventTable.scanPublicEvent last ∈ rowsAfter t afterSeq := by
    refine List.mem_map_of_mem (List.mem_filter.mpr ⟨List.mem_of_getLast? hlast, ?_⟩)
    simp only [decide_eq_true_eq]
    omega
  obtain ⟨init, hinit⟩ := List.getLast?_eq_some_iff.mp h
  have hasc := pairwise_rowsAfter t afterSeq
  rw [hinit] at hasc hin
  rcases List.mem_append.mp hin with hbefore | hlast'
  · have := (List.pairwise_append.mp hasc).2.2 _ hbefore row (by simp)
    have hs : (PublicEventTable.scanPublicEvent last).seq = last.seq := rfl
    omega
  · have := congrArg PublicEvent.seq (List.mem_singleton.mp hlast')
    rw [hlatest, ← this]
    rfl

theorem rowsAfter_eq_nil {t : PublicEventTable} {afterSeq : Int}
    (h : t.latestPublicSeq ≤ afterSeq) : rowsAfter t afterSeq = [] := by
  refine List.eq_nil_iff_forall_not_mem.mpr fun row hrow => ?_
  have := mem_rowsAfter hrow
  omega

/-- What a response without reset says: the bounds passed the test, and the rest
is the page. -/
theorem publicEvents_no_reset {server : Server} {now : Int} {query : PublicEventsQuery}
    {bounds : Int × Int} {t : PublicEventTable} {response : PublicEventsResponse}
    (h : publicEvents server now query bounds t = .ok response)
    (hreset : response.resetRequired = false) :
    resetNeeded bounds (query.afterSeq.getD 0) = false ∧
      response = pageResponse server now bounds (query.afterSeq.getD 0)
        (t.listPublicEventsAfter (eventsFilter query)) := by
  unfold publicEvents at h
  split at h
  · cases h
  · by_cases hfloor : resetNeeded bounds (query.afterSeq.getD 0) = true
    · simp only [hfloor, if_true] at h
      cases h
      cases hreset
    · simp only [hfloor] at h
      cases h
      exact ⟨Bool.eq_false_of_not_eq_true hfloor, rfl⟩

end CartoLive.Api
