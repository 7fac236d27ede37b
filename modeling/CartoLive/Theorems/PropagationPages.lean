import CartoLive.Api.PublicPropagation
import CartoLive.Lib.Paging

/-!
# Following the propagation cursor

A client that follows the cursors of `publicPropagation` gets every allowed event
of its window once, newest first, if and only if no batch of rows that its pages
read holds more allowed events than there is room for on the page
(`propagation_enumerates_iff`).

The cursor of a page is the one behind its last batch. Where a page is full before
the end of the batch, the allowed events that follow in the batch are on no page
(`second_event_left_out`).
-/

namespace CartoLive.Theorems.PropagationPages

open CartoLive.Lib CartoLive.Go CartoLive.Live CartoLive.Store CartoLive.Api

/-! ## Rows and events -/

section Rows

variable (filter : PublicIATAFilter)

/-- The event of a row, if it is allowed. -/
def keepRow (row : PropagationRow) : Option PublicPropagationEvent :=
  if allowedEvent filter (scanPropagationEvent row) then some (scanPropagationEvent row) else none

/-- A row of a window and a region. -/
def InRequest (fromMs toMs : Int) (region : String) (row : PropagationRow) : Prop :=
  fromMs ≤ row.heardAt ∧ row.heardAt ≤ toMs ∧ (region = "" ∨ row.region = region)

instance (fromMs toMs : Int) (region : String) : DecidablePred (InRequest fromMs toMs region) :=
  fun row => by
    unfold InRequest
    infer_instance

/-- The rows of a request, newest first. -/
def requestRows (table : List PropagationRow) (fromMs toMs : Int) (region : String) :
    List PropagationRow :=
  (table.filter fun row => InRequest fromMs toMs region row).insertionSort
    (rowOrder true propagationCursor)

/-- The allowed events of a request, newest first. -/
def allowedEvents (table : List PropagationRow) (fromMs toMs : Int) (region : String) :
    List PublicPropagationEvent :=
  (requestRows table fromMs toMs region).filterMap (keepRow filter)

/-- No batch that is read for pages with room for `limit` events holds more allowed
events than there is room for. -/
def BatchesFit (limit : Nat) (rows : List PropagationRow) : Prop :=
  ∀ b ∈ batches (keepRow filter) propagationRawLimit limit propagationMaxRawScan limit 0 rows,
    (b.2.filterMap (keepRow filter)).length ≤ b.1

/-- What the pages from a cursor on show. -/
def pagesListing (limit : Nat) (rows : List PropagationRow) (c : Option HistoryCursor) :
    List PublicPropagationEvent :=
  shown (keepRow filter)
    (batches (keepRow filter) propagationRawLimit limit propagationMaxRawScan limit 0
      (rowsBeyond (HistoryCursor.Before true) propagationCursor c rows))

variable {filter}

theorem requestRows_eq (table : List PropagationRow) (fromMs toMs : Int) (region : String) :
    selectRows true propagationCursor none (InRequest fromMs toMs region) table =
      requestRows table fromMs toMs region := by
  unfold selectRows requestRows
  congr 1
  refine List.filter_congr fun row _ => Bool.eq_iff_iff.mpr ?_
  rw [decide_eq_true_eq, decide_eq_true_eq]
  exact and_iff_left fun _ h => by cases h

theorem mem_requestRows {table : List PropagationRow} {fromMs toMs : Int} {region : String}
    {row : PropagationRow} :
    row ∈ requestRows table fromMs toMs region ↔ row ∈ table ∧ InRequest fromMs toMs region row := by
  unfold requestRows
  rw [(List.perm_insertionSort _ _).mem_iff, List.mem_filter, decide_eq_true_eq]

/-- The loop over the events of a batch keeps the allowed ones as long as there is
room. -/
theorem keepAllowed_eq {limit : Nat} (rows : List PropagationRow)
    {events : List PublicPropagationEvent} (hroom : events.length < limit) :
    keepAllowed filter limit (rows.map scanPropagationEvent) events =
      events ++ (rows.filterMap (keepRow filter)).take (limit - events.length) := by
  induction rows generalizing events with
  | nil => simp [keepAllowed]
  | cons row rows ih =>
    rw [List.map_cons, keepAllowed]
    cases hallowed : allowedEvent filter (scanPropagationEvent row) with
    | false =>
      have hkeep : keepRow filter row = none := if_neg (by simp [hallowed])
      rw [if_pos (by rfl), ih hroom, List.filterMap_cons_none hkeep]
    | true =>
      have hkeep : keepRow filter row = some (scanPropagationEvent row) := if_pos hallowed
      obtain ⟨n, hn⟩ : ∃ n, limit - events.length = n + 1 := ⟨limit - events.length - 1, by omega⟩
      rw [if_neg (by simp), List.filterMap_cons_some hkeep, hn, List.take_succ_cons]
      have hlength : (events ++ [scanPropagationEvent row]).length = events.length + 1 := by simp
      split
      · rename_i hfull
        have hzero : n = 0 := by omega
        rw [hzero, List.take_zero]
      · rename_i hfull
        rw [ih (not_le.mp hfull), List.append_assoc]
        have hrest : limit - (events ++ [scanPropagationEvent row]).length = n := by omega
        rw [hrest]
        rfl

end Rows

/-! ## One request -/

section Request

variable {filter : PublicIATAFilter} {table : List PropagationRow} {now fromMs toMs : Int}
  {limit : Nat} {region : String}

/-- Between two passes: the events found and what the rest of the page and the
pages behind it show are what the pages from the cursor on show. -/
structure PageInv (filter : PublicIATAFilter) (limit : Nat) (rows : List PropagationRow)
    (c : Option HistoryCursor) (s : PropagationScan) : Prop where
  listed : pagesListing filter limit rows c = s.events ++
    shown (keepRow filter)
      (batches (keepRow filter) propagationRawLimit limit propagationMaxRawScan
        (limit - s.events.length) s.scanned
        (rowsBeyond (HistoryCursor.Before true) propagationCursor s.nextCursor rows))
  reads : ∃ read, Leads (HistoryCursor.Before true) (rows.map propagationCursor)
    (fun c => (rowsBeyond (HistoryCursor.Before true) propagationCursor c rows).filterMap some) c
    read s.nextCursor
  left : 0 < s.scanned → s.nextCursor ≠ c
  scans : s.events.length ≤ s.scanned

/-- A page that ends between two passes is a right answer. -/
theorem PageInv.answers {rows : List PropagationRow} {c : Option HistoryCursor}
    {s : PropagationScan} (h : PageInv filter limit rows c s) (hlimit : 0 < limit)
    (hover : limit ≤ s.events.length ∨ propagationMaxRawScan ≤ s.scanned) :
    Answers (HistoryCursor.Before true) (rows.map propagationCursor)
      (pagesListing filter limit rows) c s.events s.nextCursor := by
  have hcap : 0 < propagationMaxRawScan := by decide
  have hscanned : 0 < s.scanned := by
    have := h.scans
    omega
  have hlisted := h.listed
  rw [batches_of_pageStart (keepRow filter) (by omega) hlimit hcap] at hlisted
  obtain ⟨read, hreads⟩ := h.reads
  rcases hreads.moves with hsame | ⟨k, hk, hnext, hbeyond⟩
  · exact absurd hsame (h.left hscanned)
  · rw [hnext] at hlisted ⊢
    exact ⟨hk, hbeyond, hlisted⟩

/-- What the loop reads. -/
theorem publicPropagationEvents_window (hto : boundedHistoryTo now toMs = toMs)
    (hregion : upperTrim region = region) (c : Option HistoryCursor) (room : Nat) :
    let ahead := rowsBeyond (HistoryCursor.Before true) propagationCursor c
      (requestRows table fromMs toMs region)
    let batch := ahead.take (propagationRawLimit room)
    publicPropagationEvents table now
        (propagationQuery fromMs toMs region c (propagationRawLimit room)) =
      (batch.map scanPropagationEvent,
        if propagationRawLimit room < ahead.length then batch.getLast?.map propagationCursor
        else none) := by
  have hcondition : ∀ row ∈ table,
      propagationCondition now (propagationQuery fromMs toMs region c (propagationRawLimit room)) row ↔
        InRequest fromMs toMs region row := by
    intro row _
    unfold propagationCondition propagationQuery InRequest
    dsimp only
    rw [hto, hregion]
  have hlimit : (propagationQuery fromMs toMs region c (propagationRawLimit room)).limit =
      propagationRawLimit room := rfl
  intro ahead batch
  have hahead : ahead = rowsBeyond (HistoryCursor.Before true) propagationCursor c
      (selectRows true propagationCursor none
        (propagationCondition now
          (propagationQuery fromMs toMs region c (propagationRawLimit room))) table) := by
    rw [selectRows_congr hcondition, requestRows_eq]
  rw [publicPropagationEvents_eq table now _ hahead, hlimit, (propagationRawLimit_bounds room).2]

/-- The state of the loop behind a batch. -/
def behind (filter : PublicIATAFilter) (limit : Nat) (s : PropagationScan)
    (batch : List PropagationRow) (next : Option HistoryCursor) : PropagationScan :=
  { events := s.events ++ (batch.filterMap (keepRow filter)).take (limit - s.events.length)
    nextCursor := next
    scanned := s.scanned + batch.length }

/-- What the pages show when a batch has been read. -/
theorem PageInv.listed_behind {rows ahead : List PropagationRow} {c : Option HistoryCursor}
    {s : PropagationScan} (h : PageInv filter limit rows c s) (hroom : s.events.length < limit)
    (hscanned : s.scanned < propagationMaxRawScan)
    (hahead : rowsBeyond (HistoryCursor.Before true) propagationCursor s.nextCursor rows = ahead)
    (next : Option HistoryCursor) :
    let n := propagationRawLimit (limit - s.events.length)
    let s' := behind filter limit s (ahead.take n) next
    pagesListing filter limit rows c = s'.events ++
      shown (keepRow filter)
        (batches (keepRow filter) propagationRawLimit limit propagationMaxRawScan
          (limit - s'.events.length) s'.scanned (ahead.drop n)) := by
  have hstart : pageStart limit propagationMaxRawScan (limit - s.events.length) s.scanned =
      (limit - s.events.length, s.scanned) := if_neg (by omega)
  have hshown := shown_batches (keepRow filter) propagationRawLimit limit propagationMaxRawScan
    (limit - s.events.length) s.scanned ahead
    (by rw [hstart]; exact (propagationRawLimit_bounds _).1)
  rw [hstart] at hshown
  intro n s'
  have hleft : limit - s'.events.length =
      limit - s.events.length - ((ahead.take n).filterMap (keepRow filter)).length := by
    show limit - (s.events ++ ((ahead.take n).filterMap (keepRow filter)).take
      (limit - s.events.length)).length = _
    rw [List.length_append, List.length_take]
    omega
  rw [h.listed, hahead, hshown, hleft, ← List.append_assoc]
  rfl

/-- A batch that others follow keeps the invariant. -/
theorem PageInv.read {rows : List PropagationRow} {c : Option HistoryCursor} {s : PropagationScan}
    (h : PageInv filter limit rows c s) (hroom : s.events.length < limit)
    (hscanned : s.scanned < propagationMaxRawScan)
    (hsorted : rows.Pairwise fun a b =>
      HistoryCursor.Before true (propagationCursor a) (propagationCursor b))
    {batch : List PropagationRow}
    (hbatch : batch =
      (rowsBeyond (HistoryCursor.Before true) propagationCursor s.nextCursor rows).take
        (propagationRawLimit (limit - s.events.length))) (hne : batch ≠ []) :
    PageInv filter limit rows c
      (behind filter limit s batch (cursorAfter propagationCursor s.nextCursor batch)) := by
  have hsplit : rowsBeyond (HistoryCursor.Before true) propagationCursor s.nextCursor rows =
      batch ++ (rowsBeyond (HistoryCursor.Before true) propagationCursor s.nextCursor rows).drop
        (propagationRawLimit (limit - s.events.length)) := by
    rw [hbatch, List.take_append_drop]
  have hlisted := h.listed_behind hroom hscanned rfl (cursorAfter propagationCursor s.nextCursor batch)
  dsimp only at hlisted
  rw [← hbatch] at hlisted
  obtain ⟨read, hreads⟩ := h.reads
  have hmoves := leads_of_read hsorted some hsplit
  have hleft := cursorAfter_ne hsplit hne
  constructor
  · rw [hlisted]
    dsimp only [behind]
    rw [rowsBeyond_cursorAfter hsorted hsplit]
  · exact ⟨_, hreads.trans hmoves⟩
  · intro _
    show cursorAfter propagationCursor s.nextCursor batch ≠ c
    by_cases hsame : s.nextCursor = c
    · rwa [← hsame]
    · exact hreads.ne_trans hmoves hsame
  · have hscans := h.scans
    have hkept := List.length_filterMap_le (keepRow filter) batch
    show (s.events ++ (batch.filterMap (keepRow filter)).take _).length ≤ s.scanned + batch.length
    rw [List.length_append, List.length_take]
    omega

/-- A pass reads on or is the last one. -/
theorem propagationPass_spec {rows : List PropagationRow}
    (hrows : rows = requestRows table fromMs toMs region)
    (hids : (table.map PropagationRow.id).Nodup) (hto : boundedHistoryTo now toMs = toMs)
    (hregion : upperTrim region = region) {c : Option HistoryCursor} {s : PropagationScan}
    (h : PageInv filter limit rows c s) (hroom : s.events.length < limit)
    (hscanned : s.scanned < propagationMaxRawScan) :
    let result := propagationPass filter table now fromMs toMs limit region s
    (result.2 = true ∧ PageInv filter limit rows c result.1 ∧
        (rowsBeyond (HistoryCursor.Before true) propagationCursor result.1.nextCursor rows).length <
          (rowsBeyond (HistoryCursor.Before true) propagationCursor s.nextCursor rows).length) ∨
      (result.2 = false ∧
        Answers (HistoryCursor.Before true) (rows.map propagationCursor)
          (pagesListing filter limit rows) c result.1.events result.1.nextCursor) := by
  have hsorted : rows.Pairwise fun a b =>
      HistoryCursor.Before true (propagationCursor a) (propagationCursor b) := by
    rw [hrows, ← requestRows_eq]
    exact pairwise_selectRows (fun _ _ => rfl) hids none _
  have hpos := (propagationRawLimit_bounds (limit - s.events.length)).1
  unfold propagationPass
  rw [publicPropagationEvents_window hto hregion, ← hrows]
  dsimp only
  rw [keepAllowed_eq _ hroom, List.length_map]
  generalize hbatch : (rowsBeyond (HistoryCursor.Before true) propagationCursor s.nextCursor
    rows).take (propagationRawLimit (limit - s.events.length)) = batch
  by_cases hmore : propagationRawLimit (limit - s.events.length) <
      (rowsBeyond (HistoryCursor.Before true) propagationCursor s.nextCursor rows).length
  · -- others follow, and the cursor is behind the batch
    have hlength := congrArg List.length hbatch
    rw [List.length_take] at hlength
    have hne : batch ≠ [] := List.length_pos_iff.mp (by omega)
    have hnext : batch.getLast?.map propagationCursor =
        cursorAfter propagationCursor s.nextCursor batch := by
      rw [cursorAfter, List.getLast?_eq_some_getLast hne]
      rfl
    have hsome : (batch.getLast?.map propagationCursor).isSome = true := by
      rw [List.getLast?_eq_some_getLast hne]
      rfl
    rw [if_pos hmore, hsome, hnext]
    refine Or.inl ⟨by simp [hne], h.read hroom hscanned hsorted hbatch.symm hne, ?_⟩
    rw [rowsBeyond_cursorAfter hsorted (by rw [← hbatch, List.take_append_drop]), List.length_drop]
    omega
  · -- the batch is all that is left
    have hall : (rowsBeyond (HistoryCursor.Before true) propagationCursor s.nextCursor rows).drop
        (propagationRawLimit (limit - s.events.length)) = [] :=
      List.drop_eq_nil_of_le (not_lt.mp hmore)
    have hlisted := h.listed_behind hroom hscanned rfl none
    dsimp only at hlisted
    rw [hbatch, hall] at hlisted
    rw [if_neg hmore]
    refine Or.inr ⟨rfl, ?_⟩
    show pagesListing filter limit rows c = _
    rw [hlisted, batches]
    exact List.append_nil _

/-- A request is answered rightly. -/
theorem publicAllowedPropagationEvents_answers (hids : (table.map PropagationRow.id).Nodup)
    (hto : boundedHistoryTo now toMs = toMs) (hregion : upperTrim region = region)
    (hlimit : 0 < limit) (c : Option HistoryCursor) :
    ∃ page next,
      publicAllowedPropagationEvents filter table now fromMs toMs limit region c =
        some (page, next) ∧
      Answers (HistoryCursor.Before true)
        ((requestRows table fromMs toMs region).map propagationCursor)
        (pagesListing filter limit (requestRows table fromMs toMs region)) c page next := by
  have hlength : (requestRows table fromMs toMs region).length ≤ table.length := by
    rw [← requestRows_eq]
    exact length_selectRows_le ..
  generalize hrows : requestRows table fromMs toMs region = rows at hlength
  have hstart : PageInv filter limit rows c { events := [], nextCursor := c, scanned := 0 } :=
    { listed := rfl
      reads := ⟨[], Leads.refl c⟩
      left := fun hpos => absurd hpos (lt_irrefl 0)
      scans := le_rfl }
  have hloop : ∃ s, runLoop (fun s : PropagationScan =>
        decide (s.events.length < limit) && decide (s.scanned < propagationMaxRawScan))
      (propagationPass filter table now fromMs toMs limit region) (table.length + 1)
      { events := [], nextCursor := c, scanned := 0 } = some s ∧
      Answers (HistoryCursor.Before true) (rows.map propagationCursor)
        (pagesListing filter limit rows) c s.events s.nextCursor := by
    refine runLoop_spec (fun s : PropagationScan =>
      (rowsBeyond (HistoryCursor.Before true) propagationCursor s.nextCursor rows).length)
      (fun s (h : PageInv filter limit rows c s) hmore => ?_) (fun s h hover => ?_) _ _ hstart
      (Nat.lt_succ_of_le ((List.length_filter_le ..).trans hlength))
    · rw [Bool.and_eq_true, decide_eq_true_eq, decide_eq_true_eq] at hmore
      exact propagationPass_spec hrows.symm hids hto hregion h hmore.1 hmore.2
    · rw [Bool.and_eq_false_iff, decide_eq_false_iff_not, decide_eq_false_iff_not] at hover
      exact h.answers hlimit (hover.imp not_lt.mp not_lt.mp)
  obtain ⟨s, hs, hdone⟩ := hloop
  refine ⟨s.events, s.nextCursor, ?_, hdone⟩
  rw [publicAllowedPropagationEvents, hs]
  rfl

end Request

/-! ## Following the cursors -/

section Client

variable {filter : PublicIATAFilter} {table : List PropagationRow} {fromMs toMs : Int}

/-- The pages of a client that follows the cursors, its `i`-th request being
answered at the time `now i`. -/
def propagationPages (filter : PublicIATAFilter) (table : List PropagationRow) (restricted : Bool)
    (request : PropagationRequest) (now : Nat → Int) :
    Option (List (List PublicPropagationEvent)) :=
  follow (fun i cursor =>
    (publicPropagation filter table (now i) restricted { request with cursor }).map fun r =>
      (r.events, r.nextCursor))
    (table.length + 1) 0 none

/-- A region that is not allowed has no allowed events. -/
theorem pagesListing_of_denied (hregions : RegionsParsed table) {region : String}
    (hne : region ≠ "") (hdenied : filter.allows region = false) (limit : Nat) :
    pagesListing filter limit (requestRows table fromMs toMs region) none = [] := by
  have hkept : (requestRows table fromMs toMs region).filterMap (keepRow filter) = [] := by
    refine List.filterMap_eq_nil_iff.mpr fun row hrow => ?_
    obtain ⟨hmem, -, -, hregion⟩ := mem_requestRows.mp hrow
    have hevent := region_scanPropagationEvent hregions hmem
    unfold keepRow allowedEvent
    rw [hevent, hregion.resolve_left hne, hdenied]
    simp [hne]
  have hlength := length_shown_le (keepRow filter)
    (batches (keepRow filter) propagationRawLimit limit propagationMaxRawScan limit 0
      (requestRows table fromMs toMs region))
  rw [flatMap_batches, hkept] at hlength
  unfold pagesListing
  rw [rowsBeyond_none]
  exact List.length_eq_zero_iff.mp (Nat.le_zero.mp hlength)

/-- The pages show what the batches leave of the allowed events. -/
theorem propagationPages_eq (hids : (table.map PropagationRow.id).Nodup)
    (hregions : RegionsParsed table) (restricted : Bool) (request : PropagationRequest)
    (now : Nat → Int)
    (hwindow : ∀ i, publicHistoryWindow request.fromQuery request.toQuery (now i) = (fromMs, toMs))
    (hto : 0 < toMs) {limit : Nat}
    (hlimit : pageLimit request.limitQuery publicPropagationDefaultLimit publicPropagationMaxLimit =
      limit) (hpos : 0 < limit) :
    ∃ pages, propagationPages filter table restricted request now = some pages ∧
      pages.flatten = pagesListing filter limit
        (requestRows table fromMs toMs (firstUpperQuery (request.region ++ request.iata))) none := by
  generalize hregion : firstUpperQuery (request.region ++ request.iata) = region
  have hbound : ∀ i, boundedHistoryTo (now i) toMs = toMs := fun i =>
    boundedHistoryTo_of_window (hwindow i) hto
  unfold propagationPages
  by_cases hdenied : region ≠ "" ∧ filter.allows region = false
  · -- the only page is empty
    refine ⟨[[]], ?_, (pagesListing_of_denied hregions hdenied.1 hdenied.2 limit).symm⟩
    unfold follow publicPropagation
    dsimp only
    rw [hwindow 0, hregion, if_pos (by simp [hdenied])]
    rfl
  · have hrequest : ∀ i c, ∃ page next,
        ((publicPropagation filter table (now i) restricted { request with cursor := c }).map
          fun r => (r.events, r.nextCursor)) = some (page, next) ∧
        Answers (HistoryCursor.Before true)
          ((requestRows table fromMs toMs region).map propagationCursor)
          (pagesListing filter limit (requestRows table fromMs toMs region)) c
          (page.map id) next := by
      intro i c
      obtain ⟨page, next, hpage, hanswer⟩ := publicAllowedPropagationEvents_answers hids (hbound i)
        (hregion ▸ upperTrim_firstUpperQuery _) hpos c
      refine ⟨page, next, ?_, (List.map_id page).symm ▸ hanswer⟩
      unfold publicPropagation
      dsimp only
      rw [hwindow i, hregion, hlimit, if_neg (by simpa using hdenied)]
      dsimp only
      rw [hpage]
      rfl
    have hlength : ((requestRows table fromMs toMs region).map propagationCursor).length ≤
        table.length := by
      rw [List.length_map, ← requestRows_eq]
      exact length_selectRows_le ..
    obtain ⟨pages, hpages, hlisted⟩ := follow_spec id _ hrequest (table.length + 1) 0 none
      (Nat.lt_succ_of_le ((List.length_filter_le ..).trans hlength))
    exact ⟨pages, hpages, by rwa [List.map_id] at hlisted⟩

/-- **Following the propagation cursor shows every allowed event once, newest
first**, if and only if no batch holds more allowed events than there is room for
on its page. -/
theorem propagation_enumerates_iff (filter : PublicIATAFilter) {table : List PropagationRow}
    (hids : (table.map PropagationRow.id).Nodup) (hregions : RegionsParsed table)
    (restricted : Bool) (request : PropagationRequest) (now : Nat → Int)
    (hwindow : ∀ i, publicHistoryWindow request.fromQuery request.toQuery (now i) = (fromMs, toMs))
    (hto : 0 < toMs) {limit : Int} (hlimit : request.limitQuery = some limit) (hone : 1 ≤ limit)
    (hmax : limit ≤ 200) :
    let region := firstUpperQuery (request.region ++ request.iata)
    (∃ pages, propagationPages filter table restricted request now = some pages ∧
      pages.flatten = allowedEvents filter table fromMs toMs region) ↔
      BatchesFit filter limit.toNat (requestRows table fromMs toMs region) := by
  intro region
  have hpage : pageLimit request.limitQuery publicPropagationDefaultLimit
      publicPropagationMaxLimit = limit.toNat := by
    rw [hlimit]
    simp only [pageLimit, Option.getD_some, publicPropagationMaxLimit]
    rw [if_neg (by omega), if_neg (by omega)]
  have hpos : 0 < limit.toNat := by omega
  obtain ⟨pages, hpages, hshown⟩ : ∃ pages,
      propagationPages filter table restricted request now = some pages ∧
        pages.flatten = pagesListing filter limit.toNat (requestRows table fromMs toMs region) none :=
    propagationPages_eq hids hregions restricted request now hwindow hto hpage hpos
  have hfit := shown_eq_iff (keepRow filter)
    (batches (keepRow filter) propagationRawLimit limit.toNat propagationMaxRawScan limit.toNat 0
      (requestRows table fromMs toMs region))
  rw [flatMap_batches] at hfit
  unfold pagesListing at hshown
  rw [rowsBeyond_none] at hshown
  refine Iff.trans ⟨?_, fun h => ⟨pages, hpages, hshown.trans h⟩⟩ hfit
  rintro ⟨ps, hps, heq⟩
  rw [hpages] at hps
  rw [← Option.some.inj hps] at heq
  exact hshown.symm.trans heq

end Client

/-! ## Without an allow-list -/

section Unrestricted

variable {filter : PublicIATAFilter}

/-- Where all events are allowed, a batch keeps all its rows. -/
theorem length_kept {rows : List PropagationRow}
    (hall : ∀ row ∈ rows, allowedEvent filter (scanPropagationEvent row) = true) :
    (rows.filterMap (keepRow filter)).length = rows.length := by
  have hkept : rows.filterMap (keepRow filter) = rows.map scanPropagationEvent := by
    rw [← List.filterMap_eq_map]
    exact List.filterMap_congr fun row hrow => if_pos (hall row hrow)
  rw [hkept, List.length_map]

/-- Pages of 200 read batches of 200. -/
theorem batchesFit_of_maxLimit {rows : List PropagationRow}
    (hall : ∀ row ∈ rows, allowedEvent filter (scanPropagationEvent row) = true) :
    ∀ room scanned, room = 0 ∨ room = 200 →
      ∀ b ∈ batches (keepRow filter) propagationRawLimit 200 propagationMaxRawScan room scanned rows,
        (b.2.filterMap (keepRow filter)).length ≤ b.1 := by
  induction hn : rows.length using Nat.strong_induction_on generalizing rows with
  | _ n ih =>
    intro room scanned hroom b hb
    by_cases hne : rows = []
    · rw [hne, batches] at hb
      cases hb
    have hstart : (pageStart 200 propagationMaxRawScan room scanned).1 = 200 := by
      unfold pageStart
      split
      · rfl
      · show room = 200
        omega
    have hsize : propagationRawLimit 200 = 200 := rfl
    rw [batches_eq _ _ _ _ _ _ hne (by rw [hstart]; decide), hstart, hsize] at hb
    have htake := length_kept fun row hrow => hall row (List.mem_of_mem_take (i := 200) hrow)
    have hpos := List.length_pos_iff.mpr hne
    rcases List.mem_cons.mp hb with rfl | hb
    · rw [htake, List.length_take]
      exact Nat.min_le_left ..
    · have hrest : (rows.drop 200).length < n := by
        rw [List.length_drop]
        omega
      by_cases hshort : rows.length ≤ 200
      · rw [List.drop_eq_nil_of_le hshort, batches] at hb
        cases hb
      · refine ih _ hrest (fun row hrow => hall row (List.mem_of_mem_drop hrow)) rfl _ _ ?_ b hb
        rw [htake, List.length_take]
        omega

/-- Where all events are allowed, the batches fit if the events fit on one page or
the pages have the maximal size, and not otherwise. -/
theorem batchesFit_iff_of_allowed {limit : Nat} (hone : 1 ≤ limit) (hmax : limit ≤ 200)
    {rows : List PropagationRow}
    (hall : ∀ row ∈ rows, allowedEvent filter (scanPropagationEvent row) = true) :
    BatchesFit filter limit rows ↔ rows.length ≤ limit ∨ limit = 200 := by
  have hstart : pageStart limit propagationMaxRawScan limit 0 = (limit, 0) :=
    if_neg (by unfold propagationMaxRawScan; omega)
  have hsize : limit ≤ propagationRawLimit limit := by
    unfold propagationRawLimit
    omega
  have hfirst := fun hne : rows ≠ [] => batches_eq (keepRow filter) propagationRawLimit limit
    propagationMaxRawScan limit 0 hne (by rw [hstart]; exact hone.trans hsize)
  rw [hstart] at hfirst
  have htake := length_kept fun row hrow =>
    hall row (List.mem_of_mem_take (i := propagationRawLimit limit) hrow)
  constructor
  · intro hfit
    by_contra hlarge
    have hne : rows ≠ [] := by
      rintro rfl
      simp at hlarge
    have hroom := hfit (limit, rows.take (propagationRawLimit limit))
      (by rw [hfirst hne]; exact List.mem_cons_self)
    rw [htake, List.length_take] at hroom
    unfold propagationRawLimit at hroom
    omega
  · rintro (hfew | rfl)
    · intro b hb
      by_cases hne : rows = []
      · rw [hne, batches] at hb
        cases hb
      · rw [hfirst hne, List.drop_eq_nil_of_le (hfew.trans hsize), batches] at hb
        rw [List.mem_singleton.mp hb, htake, List.length_take]
        exact (Nat.min_le_right ..).trans hfew
    · exact batchesFit_of_maxLimit hall 200 0 (Or.inr rfl)

end Unrestricted

/-! ## Runs -/

/-- Two propagation events. -/
def twoEvents : List PropagationRow :=
  [{ id := 1, publicID := "prop-1", edgeID := 1, heardAt := 1000, region := "YOW" },
    { id := 2, publicID := "prop-2", edgeID := 2, heardAt := 2000, region := "" }]

/-- The request for events up to 5000. -/
def eventsUpTo5000 (limit : Int) : PropagationRequest :=
  { fromQuery := some 0, toQuery := some 5000, limitQuery := some limit, cursor := none
    region := [], iata := [] }

theorem regionsParsed_twoEvents : RegionsParsed twoEvents := by
  intro row hrow
  rcases List.mem_cons.mp hrow with rfl | hrow
  · exact Or.inr ⟨"YOW", by decide +kernel⟩
  · exact Or.inl (List.mem_singleton.mp hrow ▸ rfl)

/-- A page with room for two shows both events. -/
theorem twoEvents_fit :
    propagationPages (newPublicIATAFilter []) twoEvents false (eventsUpTo5000 2) (fun _ => 10000) =
        some [allowedEvents (newPublicIATAFilter []) twoEvents 0 5000 ""] ∧
      BatchesFit (newPublicIATAFilter []) 2 (requestRows twoEvents 0 5000 "") :=
  ⟨by decide +kernel,
    (propagation_enumerates_iff (newPublicIATAFilter []) (by decide) regionsParsed_twoEvents false
      (eventsUpTo5000 2) (fun _ => 10000) (fun _ => by decide) (by decide) rfl (by decide)
      (by decide)).mp
      ⟨[allowedEvents (newPublicIATAFilter []) twoEvents 0 5000 ""], by decide +kernel, by
        decide +kernel⟩⟩

/-- A page with room for one leaves out the other event. -/
theorem second_event_left_out :
    ¬ ∀ (filter : PublicIATAFilter) (table : List PropagationRow),
      (table.map PropagationRow.id).Nodup → RegionsParsed table →
      ∀ (restricted : Bool) (request : PropagationRequest) (now : Nat → Int)
        (fromMs toMs limit : Int),
      (∀ i, publicHistoryWindow request.fromQuery request.toQuery (now i) = (fromMs, toMs)) →
      0 < toMs → request.limitQuery = some limit → 1 ≤ limit → limit ≤ 200 →
      ∃ pages, propagationPages filter table restricted request now = some pages ∧
        pages.flatten = allowedEvents filter table fromMs toMs
          (firstUpperQuery (request.region ++ request.iata)) := by
  intro h
  obtain ⟨pages, hpages, hshown⟩ := h (newPublicIATAFilter []) twoEvents (by decide)
    regionsParsed_twoEvents false (eventsUpTo5000 1) (fun _ => 10000) 0 5000 1
    (fun _ => by decide) (by decide) rfl (by decide) (by decide)
  have hone : (propagationPages (newPublicIATAFilter []) twoEvents false (eventsUpTo5000 1)
      fun _ => 10000).map (fun ps => ps.flatten.length) = some 1 := by decide +kernel
  have htwo : (allowedEvents (newPublicIATAFilter []) twoEvents 0 5000 "").length = 2 := by
    decide +kernel
  rw [hpages, Option.map_some, hshown] at hone
  exact absurd (htwo.symm.trans (Option.some.inj hone)) (by decide)

end CartoLive.Theorems.PropagationPages
