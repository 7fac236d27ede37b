import CartoLive.Web.EventRecovery
import Mathlib.Data.List.Perm.Subperm

/-!
# When event recovery is complete

A browser that recovers against the endpoint, with nothing changing in the
table meanwhile. The endpoint hides events of excluded regions after it has cut
the page, and the browser takes an empty page for a gap, so recovery is complete
exactly when no page is hidden altogether and the last event is visible
(`recoverPublicEventPages_complete_iff`).

The proof follows the pages: every full page moves the cursor to its last row,
visible or not (`rowsAfter_pageEnd`), so the pages are the consecutive slices of
the rows behind the starting cursor.
-/

namespace CartoLive.Theorems.Recovery

open CartoLive.Live CartoLive.Store CartoLive.Api CartoLive.Web

/-- The server that a recovering browser talks to, on a table at rest. -/
def fetchFrom (server : Server) (now : Int) (t : PublicEventTable) (afterSeq limit : Int) :
    Except (Nat × String) PublicEventsResponse :=
  publicEvents server now (recoveryQuery afterSeq limit) t.publicSeqBounds t

/-- No full page of the rows is hidden altogether, and the last row is visible. -/
def PagesVisible (visible : PublicEvent → Bool) (limit : Nat) (rows : List PublicEvent) : Prop :=
  (∀ k, (k + 1) * limit < rows.length →
    ∃ row ∈ (rows.drop (k * limit)).take limit, visible row = true) ∧
  ∀ row, rows.getLast? = some row → visible row = true

/-! ## Pages of a list -/

section Pages

variable {visible : PublicEvent → Bool} {limit : Nat} {rows : List PublicEvent}

theorem pagesVisible_short (h : rows.length ≤ limit) :
    PagesVisible visible limit rows ↔ ∀ row, rows.getLast? = some row → visible row = true := by
  refine ⟨fun hp => hp.2, fun hlast => ⟨fun k hk => ?_, hlast⟩⟩
  have : limit ≤ (k + 1) * limit := Nat.le_mul_of_pos_left limit (Nat.succ_pos k)
  omega

theorem pagesVisible_long (h : limit < rows.length) :
    PagesVisible visible limit rows ↔
      (∃ row ∈ rows.take limit, visible row = true) ∧
        PagesVisible visible limit (rows.drop limit) := by
  have hlast : (rows.drop limit).getLast? = rows.getLast? := by
    rw [List.getLast?_drop, if_neg (by omega)]
  have hlen : (rows.drop limit).length = rows.length - limit := List.length_drop
  constructor
  · rintro ⟨hpages, hend⟩
    refine ⟨by simpa using hpages 0 (by simpa using h), fun k hk => ?_, by rwa [hlast]⟩
    have hk' : (k + 1 + 1) * limit < rows.length := by
      rw [Nat.succ_mul]
      omega
    have := hpages (k + 1) hk'
    rwa [Nat.succ_mul, Nat.add_comm, ← List.drop_drop] at this
  · rintro ⟨hfirst, hpages, hend⟩
    refine ⟨fun k hk => ?_, by rwa [hlast] at hend⟩
    cases k with
    | zero => simpa using hfirst
    | succ k =>
      have hk' : (k + 1) * limit < (rows.drop limit).length := by
        rw [Nat.succ_mul] at hk
        omega
      have := hpages k hk'
      rwa [List.drop_drop, Nat.add_comm, ← Nat.succ_mul] at this

/-- When the first page is hidden altogether, only the empty list passes. -/
theorem pagesVisible_hidden (h : (rows.take limit).filter visible = []) :
    PagesVisible visible limit rows ↔ rows = [] := by
  constructor
  · intro hp
    by_contra hne
    have hhidden := List.filter_eq_nil_iff.mp h
    rcases Nat.lt_or_ge limit rows.length with hlong | hshort
    · obtain ⟨row, hrow, hv⟩ := ((pagesVisible_long hlong).mp hp).1
      exact hhidden row hrow hv
    · have hlast := List.getLast?_eq_some_getLast hne
      rw [List.take_of_length_le hshort] at hhidden
      exact hhidden _ (List.mem_of_getLast? hlast) (hp.2 _ hlast)
  · rintro rfl
    exact (pagesVisible_short (Nat.zero_le limit)).mpr (by simp)

/-- The last element of a filtered list whose last element passes. -/
theorem getLast?_filter_of_last {p : PublicEvent → Bool} {row : PublicEvent}
    (h : rows.getLast? = some row) (hp : p row = true) :
    (rows.filter p).getLast? = some row := by
  obtain ⟨init, rfl⟩ := List.getLast?_eq_some_iff.mp h
  simp [List.filter_append, hp]

/-- In increasing order, the rows beyond the end of a slice are the rest. -/
theorem filter_beyond_take (hasc : rows.Pairwise fun a b => a.seq < b.seq) {row : PublicEvent}
    (h : (rows.take limit).getLast? = some row) :
    (rows.filter fun r => row.seq < r.seq) = rows.drop limit := by
  obtain ⟨init, hinit⟩ := List.getLast?_eq_some_iff.mp h
  have hsplit : rows = (init ++ [row]) ++ rows.drop limit := by
    rw [← hinit, List.take_append_drop]
  have hpair := hasc
  rw [hsplit] at hpair
  obtain ⟨hfront, -, hcross⟩ := List.pairwise_append.mp hpair
  obtain ⟨-, -, hinner⟩ := List.pairwise_append.mp hfront
  rw [hsplit, List.filter_append, ← hsplit]
  have hnone : (init ++ [row]).filter (fun r => decide (row.seq < r.seq)) = [] := by
    refine List.filter_eq_nil_iff.mpr fun r hr => ?_
    rcases List.mem_append.mp hr with hr | hr
    · have := hinner r hr row (by simp)
      simp only [decide_eq_true_eq]
      omega
    · rw [List.mem_singleton.mp hr]
      simp
  have hall : (rows.drop limit).filter (fun r => decide (row.seq < r.seq)) = rows.drop limit := by
    refine List.filter_eq_self.mpr fun r hr => ?_
    have := hcross row (by simp) r hr
    simpa using this
  rw [hnone, hall, List.nil_append]

end Pages

/-! ## Rows behind a cursor -/

variable {t : PublicEventTable} {server : Server} {now limit c : Int}

theorem rowsAfter_rowsAfter {c' : Int} (h : c ≤ c') :
    rowsAfter t c' = (rowsAfter t c).filter fun row => c' < row.seq := by
  simp only [rowsAfter, List.filter_map, List.filter_filter]
  congr 1
  refine List.filter_congr fun row _ => Bool.eq_iff_iff.mpr ?_
  simp only [Function.comp, Bool.and_eq_true, decide_eq_true_eq]
  exact ⟨fun hlt => ⟨hlt, Int.lt_of_le_of_lt h hlt⟩, And.left⟩

/-- Behind the last row of a page come the rows after the page. -/
theorem rowsAfter_pageEnd {n : Nat} {row : PublicEvent}
    (h : ((rowsAfter t c).take n).getLast? = some row) :
    rowsAfter t row.seq = (rowsAfter t c).drop n := by
  have hmem := mem_rowsAfter (List.mem_of_mem_take (List.mem_of_getLast? h))
  rw [rowsAfter_rowsAfter (c := c) (by omega)]
  exact filter_beyond_take (pairwise_rowsAfter t c) h

/-- Every visible row of a page is at or before the page's last row. -/
theorem seq_le_pageEnd {n : Nat} {row : PublicEvent} {visible : PublicEvent → Bool}
    (h : ((rowsAfter t c).take n).getLast? = some row) {other : PublicEvent}
    (hother : other ∈ ((rowsAfter t c).take n).filter visible) : other.seq ≤ row.seq := by
  obtain ⟨init, hinit⟩ := List.getLast?_eq_some_iff.mp h
  have hasc := (pairwise_rowsAfter t c).sublist (List.take_sublist n _)
  have hmem := List.mem_of_mem_filter hother
  rw [hinit] at hasc hmem
  rcases List.mem_append.mp hmem with hbefore | hend
  · exact Int.le_of_lt ((List.pairwise_append.mp hasc).2.2 other hbefore row (by simp))
  · rw [List.mem_singleton.mp hend]

theorem rowsAfter_eq_nil_iff (hc : 0 ≤ c) : rowsAfter t c = [] ↔ t.latestPublicSeq ≤ c := by
  refine ⟨fun hnil => ?_, rowsAfter_eq_nil⟩
  by_contra hlt
  cases hlast : t.rows.getLast? with
  | none =>
    have := PublicEventTable.publicSeqBounds_of_rows_eq_nil (List.getLast?_eq_none_iff.mp hlast)
    simp only [PublicEventTable.latestPublicSeq, this] at hlt
    omega
  | some row =>
    have hlatest := PublicEventTable.latestPublicSeq_eq_getLast hlast
    have hin : PublicEventTable.scanPublicEvent row ∈ rowsAfter t c :=
      List.mem_map_of_mem
        (List.mem_filter.mpr ⟨List.mem_of_getLast? hlast, decide_eq_true (by omega)⟩)
    rw [hnil] at hin
    cases hin

/-- Two rows behind a cursor with one sequence are one row. -/
theorem eq_of_seq_eq {a b : PublicEvent} (ha : a ∈ rowsAfter t c) (hb : b ∈ rowsAfter t c)
    (h : a.seq = b.seq) : a = b := by
  have hnodup : ((rowsAfter t c).map PublicEvent.seq).Nodup :=
    List.pairwise_map.mpr ((pairwise_rowsAfter t c).imp fun hlt => Int.ne_of_lt hlt)
  exact List.inj_on_of_nodup_map hnodup ha hb h

/-! ## One round against the server -/

/-- What the handler does with the bounds of a table at rest. -/
theorem fetchFrom_page (henabled : server.publicEventsEnabled = true)
    (hfloor : resetNeeded t.publicSeqBounds c = false) :
    fetchFrom server now t c limit =
      .ok (pageResponse server now t.publicSeqBounds c
        (t.listPublicEventsAfter (eventsFilter (recoveryQuery c limit)))) := by
  simp [fetchFrom, publicEvents, henabled, hfloor, recoveryQuery]

/-- The floor test only gets easier as the cursor moves up to the latest row. -/
theorem resetNeeded_mono {c' : Int} (hfloor : resetNeeded t.publicSeqBounds c = false)
    (h₁ : c ≤ c') (h₂ : c' ≤ t.latestPublicSeq) : resetNeeded t.publicSeqBounds c' = false := by
  have hlatest : t.publicSeqBounds.2 = t.latestPublicSeq := rfl
  simp only [resetNeeded, Bool.or_eq_false_iff, Bool.and_eq_false_iff, decide_eq_false_iff_not]
    at hfloor ⊢
  omega

/-- The visible part of the page behind a cursor. -/
def visiblePage (server : Server) (t : PublicEventTable) (c limit : Int) : List PublicEvent :=
  ((rowsAfter t c).take limit.toNat).filter server.admits

/-- The response for a page, in terms of the rows behind the cursor. -/
def recoveryPage (server : Server) (now : Int) (t : PublicEventTable) (c limit : Int) :
    PublicEventsResponse :=
  pageResponse server now t.publicSeqBounds c
    (t.listPublicEventsAfter (eventsFilter (recoveryQuery c limit)))

theorem mem_visiblePage {row : PublicEvent} (h : row ∈ visiblePage server t c limit) :
    row ∈ rowsAfter t c :=
  List.mem_of_mem_take (List.mem_of_mem_filter h)

section Round

variable (h₁ : 1 ≤ limit) (h₂ : limit ≤ 1000)

include h₁ h₂

theorem events_recoveryPage :
    (recoveryPage server now t c limit).events = visiblePage server t c limit := by
  simp only [recoveryPage, pageResponse, listPublicEventsAfter_recoveryQuery t h₁ h₂]
  rfl

/-- The browser keeps the visible rows with a safe sequence. -/
theorem freshEvents_recoveryPage (hc : 0 ≤ c) :
    freshEvents c (recoveryPage server now t c limit) =
      (visiblePage server t c limit).filter fun row => row.seq ≤ maxSafeInteger := by
  have hevents : (recoveryPage server now t c limit).events = visiblePage server t c limit :=
    events_recoveryPage h₁ h₂
  have hasc : (visiblePage server t c limit).Pairwise fun a b => a.seq < b.seq :=
    ((pairwise_rowsAfter t c).sublist (List.take_sublist ..)).filter _
  rw [freshEvents_eq_filter (by rwa [hevents]), hevents]
  refine List.filter_congr fun row hrow => decide_eq_decide.mpr ?_
  have hgt := (mem_rowsAfter (mem_visiblePage hrow)).1
  unfold finiteSequence
  split <;> omega

/-- The cursor that the server sends back with a full page: its last row. -/
theorem nextCursor_full {row : PublicEvent} (hmore : limit.toNat < (rowsAfter t c).length)
    (hrow : ((rowsAfter t c).take limit.toNat).getLast? = some row) (hpos : 0 < row.seq) :
    decimalNumber (recoveryPage server now t c limit).nextCursor = row.seq := by
  simp only [recoveryPage, pageResponse, listPublicEventsAfter_recoveryQuery t h₁ h₂, hmore,
    hrow, if_true, Option.map_some, Option.getD_some]
  rw [if_neg (by omega), decimalNumber_publicSeqCursor]
  omega

/-- The cursor with the last page: its last visible row. -/
theorem nextCursor_short {row : PublicEvent} (hshort : (rowsAfter t c).length ≤ limit.toNat)
    (hrow : (visiblePage server t c limit).getLast? = some row) (hpos : 0 < row.seq) :
    decimalNumber (recoveryPage server now t c limit).nextCursor = row.seq := by
  have hshort' : ¬ limit.toNat < (rowsAfter t c).length := by omega
  have hvisible : filterPublicEvents server ((rowsAfter t c).take limit.toNat) =
    visiblePage server t c limit := rfl
  simp only [recoveryPage, pageResponse, listPublicEventsAfter_recoveryQuery t h₁ h₂, hshort',
    if_false, if_true, hvisible, hrow, Option.map_some, Option.getD_some]
  rw [decimalNumber_publicSeqCursor]
  omega

/-- A round that finds nothing to apply ends the recovery. -/
theorem round_nothing {L : Int} {pages : Nat} (hc : 1 ≤ c)
    (hnone : (visiblePage server t c limit).filter (fun row => row.seq ≤ maxSafeInteger) = []) :
    recoverPageStep { cursor := c, latestSeq := L, pages }
        (recoveryPage server now t c limit) =
      ([], .inl
        { status := if max L (finiteSequence t.latestPublicSeq) ≤ c then .caughtUp
                    else .unrecoverableGap
          cursor := c
          latestSeq := max L (finiteSequence t.latestPublicSeq)
          pages := pages + 1 }) := by
  have hfresh : freshEvents c (recoveryPage server now t c limit) =
      (visiblePage server t c limit).filter fun row => row.seq ≤ maxSafeInteger :=
    freshEvents_recoveryPage h₁ h₂ (by omega)
  have hreset : (recoveryPage server now t c limit).resetRequired = false := rfl
  have hlatest : (recoveryPage server now t c limit).latestSeq = t.latestPublicSeq := rfl
  rw [recoverPageStep_nothing hreset (hfresh.trans hnone), hlatest]
  dsimp only
  rw [if_neg (by omega : ¬ c = 0)]

/-- A round that applies events and moves the cursor. -/
theorem round_some {L next : Int} {pages : Nat} (hc : 1 ≤ c)
    (hsome : (visiblePage server t c limit).filter (fun row => row.seq ≤ maxSafeInteger) ≠ [])
    (hnext : pageCursor ((visiblePage server t c limit).filter fun row => row.seq ≤ maxSafeInteger)
      (recoveryPage server now t c limit) = next) (hmove : c < next) :
    recoverPageStep { cursor := c, latestSeq := L, pages }
        (recoveryPage server now t c limit) =
      ((visiblePage server t c limit).filter fun row => row.seq ≤ maxSafeInteger,
        if max L (finiteSequence t.latestPublicSeq) ≤ next then
          .inl { status := .caughtUp, cursor := next,
                 latestSeq := max L (finiteSequence t.latestPublicSeq), pages := pages + 1 }
        else .inr { cursor := next, latestSeq := max L (finiteSequence t.latestPublicSeq),
                    pages := pages + 1 }) := by
  have hfresh : freshEvents c (recoveryPage server now t c limit) =
      (visiblePage server t c limit).filter fun row => row.seq ≤ maxSafeInteger :=
    freshEvents_recoveryPage h₁ h₂ (by omega)
  have hreset : (recoveryPage server now t c limit).resetRequired = false := rfl
  have hlatest : (recoveryPage server now t c limit).latestSeq = t.latestPublicSeq := rfl
  simp only [recoverPageStep, hreset, hlatest, hfresh, hsome, hnext, if_false]
  rw [if_neg (by simp), if_neg (by omega : ¬ next ≤ c)]
  split <;> rfl

end Round

/-- The page cursor is the server's, when that is at or beyond the last event. -/
theorem pageCursor_eq {events : List PublicEvent} {response : PublicEventsResponse}
    {row : PublicEvent} {next : Int} (hlast : events.getLast? = some row)
    (hnext : decimalNumber response.nextCursor = next) (hle : row.seq ≤ next) (hpos : 0 < next)
    (hsafe : next ≤ maxSafeInteger) : pageCursor events response = next := by
  simp only [pageCursor, hlast, hnext, Option.map_some, Option.getD_some]
  rw [finiteSequence_of_safe hsafe, finiteSequence_of_safe (Int.le_trans hle hsafe)]
  omega

/-! ## The whole run -/

/-- A table whose sequences a JavaScript number holds exactly. -/
def SafeTable (t : PublicEventTable) : Prop := t.latestPublicSeq ≤ maxSafeInteger

theorem filter_safe (hsafe : SafeTable t) :
    (visiblePage server t c limit).filter (fun row => row.seq ≤ maxSafeInteger) =
      visiblePage server t c limit := by
  refine List.filter_eq_self.mpr fun row hrow => decide_eq_true ?_
  exact Int.le_trans (mem_rowsAfter (mem_visiblePage hrow)).2 hsafe

/-- How a recovery from a cursor ends: caught up exactly when the pages behind
the cursor are visible, and then with all visible rows. -/
structure Completes (server : Server) (t : PublicEventTable) (c limit : Int)
    (applied : List (List PublicEvent)) (out : Recovery) : Prop where
  caughtUp_iff : out.result.status = .caughtUp ↔
    PagesVisible server.admits limit.toNat (rowsAfter t c)
  applied_eq : PagesVisible server.admits limit.toNat (rowsAfter t c) →
    out.applied.flatten = applied.flatten ++ (rowsAfter t c).filter server.admits

section Cases

variable (hsafe : SafeTable t)

/-! ### A page that is hidden altogether -/

/-- The browser takes a hidden page for a gap, rightly only when no row is left. -/
theorem completes_hidden {applied : List (List PublicEvent)} {out : Recovery} (hc : 1 ≤ c)
    (hvis : visiblePage server t c limit = [])
    (hstatus : out.result.status = if t.latestPublicSeq ≤ c then .caughtUp else .unrecoverableGap)
    (happlied : out.applied = applied ++ [[]]) : Completes server t c limit applied out := by
  have hpages := pagesVisible_hidden hvis
  have hnil := rowsAfter_eq_nil_iff (t := t) (c := c) (by omega)
  refine ⟨?_, fun hp => ?_⟩
  · rw [hpages, hnil, hstatus]
    split <;> simp_all
  · simp [happlied, hpages.mp hp]

/-! ### A full page -/

variable (server now) in
include hsafe in
/-- After a full page that shows something the cursor is at the page's last row,
visible or not. -/
theorem round_full {L : Int} (pages : Nat) {row : PublicEvent} (h₁ : 1 ≤ limit)
    (h₂ : limit ≤ 1000) (hc : 1 ≤ c) (hL : L ≤ t.latestPublicSeq)
    (hlong : limit.toNat < (rowsAfter t c).length)
    (hrow : ((rowsAfter t c).take limit.toNat).getLast? = some row)
    (hvis : visiblePage server t c limit ≠ []) :
    recoverPageStep { cursor := c, latestSeq := L, pages } (recoveryPage server now t c limit) =
      (visiblePage server t c limit,
        .inr { cursor := row.seq, latestSeq := t.latestPublicSeq, pages := pages + 1 }) ∧
    c < row.seq ∧ row.seq < t.latestPublicSeq := by
  have hlast := List.getLast?_eq_some_getLast hvis
  have hbounds := mem_rowsAfter (List.mem_of_mem_take (List.mem_of_getLast? hrow))
  have hle := seq_le_pageEnd hrow (List.mem_of_getLast? hlast)
  have hbeyond : row.seq < t.latestPublicSeq := by
    by_contra hge
    have hnil : rowsAfter t row.seq = [] := rowsAfter_eq_nil (by omega)
    rw [rowsAfter_pageEnd hrow, List.drop_eq_nil_iff] at hnil
    omega
  have hmax : max L (finiteSequence t.latestPublicSeq) = t.latestPublicSeq := by
    rw [finiteSequence_of_safe hsafe]
    omega
  have hfilter : (visiblePage server t c limit).filter (fun row => row.seq ≤ maxSafeInteger) =
      visiblePage server t c limit := filter_safe hsafe
  have hnext : decimalNumber (recoveryPage server now t c limit).nextCursor = row.seq :=
    nextCursor_full h₁ h₂ hlong hrow (by omega)
  have hcursor := pageCursor_eq hlast hnext hle
    (by omega) (Int.le_trans hbounds.2 hsafe)
  rw [← hfilter] at hcursor
  rw [round_some h₁ h₂ hc (by rwa [hfilter]) hcursor (by omega), hmax,
    if_neg (by omega : ¬ t.latestPublicSeq ≤ row.seq), hfilter]
  exact ⟨rfl, hbounds.1, hbeyond⟩

/-- What completes behind a full page that shows something completes with it. -/
theorem completes_full {applied : List (List PublicEvent)} {out : Recovery} {row : PublicEvent}
    (hlong : limit.toNat < (rowsAfter t c).length)
    (hrow : ((rowsAfter t c).take limit.toNat).getLast? = some row)
    (hvis : visiblePage server t c limit ≠ [])
    (hout : Completes server t row.seq limit (applied ++ [visiblePage server t c limit]) out) :
    Completes server t c limit applied out := by
  obtain ⟨shown, hshown⟩ := List.exists_mem_of_ne_nil _ hvis
  have hfirst : ∃ row ∈ (rowsAfter t c).take limit.toNat, server.admits row = true :=
    ⟨shown, List.mem_filter.mp hshown⟩
  have hpages : PagesVisible server.admits limit.toNat (rowsAfter t c) ↔ _ :=
    pagesVisible_long hlong
  rw [← rowsAfter_pageEnd hrow] at hpages
  refine ⟨?_, fun hp => ?_⟩
  · rw [hout.caughtUp_iff, hpages]
    exact ⟨fun hp => ⟨hfirst, hp⟩, And.right⟩
  · rw [hout.applied_eq (hpages.mp hp).2, rowsAfter_pageEnd hrow]
    conv_rhs => rw [← List.take_append_drop limit.toNat (rowsAfter t c), List.filter_append]
    simp [visiblePage]

/-! ### The last page -/

include hsafe in
/-- After the last page the cursor is at its last visible row. -/
theorem round_last {L : Int} {pages : Nat} {last : PublicEvent} (h₁ : 1 ≤ limit)
    (h₂ : limit ≤ 1000) (hc : 1 ≤ c) (hL : L ≤ t.latestPublicSeq)
    (hshort : (rowsAfter t c).length ≤ limit.toNat)
    (hlast : (visiblePage server t c limit).getLast? = some last) :
    recoverPageStep { cursor := c, latestSeq := L, pages } (recoveryPage server now t c limit) =
      (visiblePage server t c limit,
        if t.latestPublicSeq ≤ last.seq then
          .inl { status := .caughtUp, cursor := last.seq, latestSeq := t.latestPublicSeq,
                 pages := pages + 1 }
        else .inr { cursor := last.seq, latestSeq := t.latestPublicSeq, pages := pages + 1 }) := by
  have hbounds := mem_rowsAfter (mem_visiblePage (List.mem_of_getLast? hlast))
  have hmax : max L (finiteSequence t.latestPublicSeq) = t.latestPublicSeq := by
    rw [finiteSequence_of_safe hsafe]
    omega
  have hfilter : (visiblePage server t c limit).filter (fun row => row.seq ≤ maxSafeInteger) =
      visiblePage server t c limit := filter_safe hsafe
  have hnext : decimalNumber (recoveryPage server now t c limit).nextCursor = last.seq :=
    nextCursor_short h₁ h₂ hshort hlast (by omega)
  have hcursor := pageCursor_eq hlast hnext (le_refl _) (by omega) (Int.le_trans hbounds.2 hsafe)
  rw [← hfilter] at hcursor
  have hsome : visiblePage server t c limit ≠ [] := by
    rintro hnil
    simp [hnil] at hlast
  rw [round_some h₁ h₂ hc (by rwa [hfilter]) hcursor (by omega), hmax, hfilter]

/-- A last page whose last row is visible completes the recovery. -/
theorem completes_visibleEnd {applied : List (List PublicEvent)} {out : Recovery}
    {last : PublicEvent} (hshort : (rowsAfter t c).length ≤ limit.toNat)
    (hlast : (visiblePage server t c limit).getLast? = some last)
    (hend : t.latestPublicSeq ≤ last.seq) (hstatus : out.result.status = .caughtUp)
    (happlied : out.applied = applied ++ [visiblePage server t c limit]) :
    Completes server t c limit applied out := by
  have hlastMem := mem_visiblePage (List.mem_of_getLast? hlast)
  have hp : PagesVisible server.admits limit.toNat (rowsAfter t c) := by
    refine (pagesVisible_short hshort).mpr fun row hrow => ?_
    have hrowSeq := seq_of_getLast_rowsAfter hrow
    have hlastSeq := (mem_rowsAfter hlastMem).2
    rw [eq_of_seq_eq (List.mem_of_getLast? hrow) hlastMem (by omega)]
    exact (List.mem_filter.mp (List.mem_of_getLast? hlast)).2
  refine ⟨by simp [hp, hstatus], fun _ => ?_⟩
  simp [happlied, visiblePage, List.take_of_length_le hshort]

/-- A last page that ends in hidden rows never completes: the round after it
finds only hidden rows. -/
theorem completes_hiddenEnd {applied applied' : List (List PublicEvent)} {out : Recovery}
    {last : PublicEvent} (hshort : (rowsAfter t c).length ≤ limit.toNat)
    (hlast : (visiblePage server t c limit).getLast? = some last)
    (hend : last.seq < t.latestPublicSeq)
    (hout : Completes server t last.seq limit applied' out) :
    Completes server t c limit applied out := by
  have hlastMem := mem_visiblePage (List.mem_of_getLast? hlast)
  have hfinal := List.getLast?_eq_some_getLast (List.ne_nil_of_mem hlastMem)
  set final := (rowsAfter t c).getLast (List.ne_nil_of_mem hlastMem)
  have hfinalSeq := seq_of_getLast_rowsAfter hfinal
  have hhidden : ¬ server.admits final = true := by
    intro hv
    have hlastIs : (visiblePage server t c limit).getLast? = some final := by
      rw [visiblePage, List.take_of_length_le hshort]
      exact getLast?_filter_of_last hfinal hv
    rw [hlast] at hlastIs
    rw [← Option.some.inj hlastIs] at hfinalSeq
    omega
  have hnot : ¬ PagesVisible server.admits limit.toNat (rowsAfter t c) :=
    fun hp => hhidden (hp.2 final hfinal)
  have hnot' : ¬ PagesVisible server.admits limit.toNat (rowsAfter t last.seq) := by
    intro hp
    have hfinal' : (rowsAfter t last.seq).getLast? = some final := by
      rw [rowsAfter_rowsAfter (Int.le_of_lt (mem_rowsAfter hlastMem).1)]
      exact getLast?_filter_of_last hfinal (decide_eq_true (by omega))
    exact hhidden (hp.2 final hfinal')
  refine ⟨?_, fun hp => absurd hp hnot⟩
  rw [hout.caughtUp_iff]
  exact ⟨fun hp => absurd hp hnot', fun hp => absurd hp hnot⟩

end Cases

variable (now) in
/-- The run lemma: from any cursor at or above the retained floor the loop ends
within as many rounds as there are rows behind the cursor and one more. -/
theorem recoverLoop_completes (henabled : server.publicEventsEnabled = true)
    (hsafe : SafeTable t) (h₁ : 1 ≤ limit) (h₂ : limit ≤ 1000) (fuel : Nat) :
    ∀ (c L : Int) (pages : Nat) (applied : List (List PublicEvent)),
      1 ≤ c → c ≤ t.latestPublicSeq → L ≤ t.latestPublicSeq →
      resetNeeded t.publicSeqBounds c = false → (rowsAfter t c).length < fuel →
      ∃ out, recoverLoop (fetchFrom server now t) (fun _ => true) limit fuel
          { cursor := c, latestSeq := L, pages } applied = some (.ok out) ∧
        Completes server t c limit applied out := by
  induction fuel with
  | zero => intro c L pages applied _ _ _ _ hfuel; omega
  | succ fuel ih =>
    intro c L pages applied hc hcl hL hfloor hfuel
    have hfetch : fetchFrom server now t c limit = .ok _ := fetchFrom_page henabled hfloor
    unfold recoverLoop
    simp only [Bool.not_true, Bool.false_eq_true, if_false, hfetch]
    rw [← recoveryPage]
    by_cases hvis : visiblePage server t c limit = []
    · rw [round_nothing h₁ h₂ hc (by rw [filter_safe hsafe, hvis])]
      refine ⟨_, rfl, completes_hidden hc hvis ?_ rfl⟩
      rw [finiteSequence_of_safe hsafe, show max L (max 0 t.latestPublicSeq) = t.latestPublicSeq
        by omega]
    rcases Nat.lt_or_ge limit.toNat (rowsAfter t c).length with hlong | hshort
    · have hpage : (rowsAfter t c).take limit.toNat ≠ [] := by
        intro hnil
        simp [visiblePage, hnil] at hvis
      obtain ⟨row, hrow⟩ : ∃ row, ((rowsAfter t c).take limit.toNat).getLast? = some row :=
        ⟨_, List.getLast?_eq_some_getLast hpage⟩
      obtain ⟨hround, hmove, hbeyond⟩ := round_full server now hsafe
        pages h₁ h₂ hc hL hlong hrow hvis
      rw [hround]
      obtain ⟨out, hrun, hout⟩ := ih row.seq t.latestPublicSeq (pages + 1)
        (applied ++ [visiblePage server t c limit]) (by omega) (by omega) (le_refl _)
        (resetNeeded_mono hfloor (by omega) (by omega))
        (by rw [rowsAfter_pageEnd hrow, List.length_drop]; omega)
      exact ⟨out, hrun, completes_full hlong hrow hvis hout⟩
    · obtain ⟨last, hlast⟩ : ∃ last, (visiblePage server t c limit).getLast? = some last :=
        ⟨_, List.getLast?_eq_some_getLast hvis⟩
      have hlastMem := mem_visiblePage (List.mem_of_getLast? hlast)
      have hbounds := mem_rowsAfter hlastMem
      rw [round_last hsafe h₁ h₂ hc hL hshort hlast]
      by_cases hend : t.latestPublicSeq ≤ last.seq
      · rw [if_pos hend]
        exact ⟨_, rfl, completes_visibleEnd hshort hlast hend rfl rfl⟩
      · rw [if_neg hend]
        have hshorter : (rowsAfter t last.seq).length < (rowsAfter t c).length := by
          rw [rowsAfter_rowsAfter (Int.le_of_lt hbounds.1)]
          exact List.length_filter_lt_length_iff_exists.mpr ⟨last, hlastMem, by simp⟩
        obtain ⟨out, hrun, hout⟩ := ih last.seq t.latestPublicSeq (pages + 1)
          (applied ++ [visiblePage server t c limit]) (by omega) (by omega) (le_refl _)
          (resetNeeded_mono hfloor (by omega) (by omega)) (by omega)
        exact ⟨out, hrun, completes_hiddenEnd hshort hlast (by omega) hout⟩

/-! ## Sequences beyond the safe integers -/

variable (now) in
/-- With a latest sequence that no safe integer holds, one round ends the
recovery: the browser reads the latest sequence as zero. -/
theorem recoverLoop_unsafe (fuel : Nat) (henabled : server.publicEventsEnabled = true)
    (hbeyond : maxSafeInteger < t.latestPublicSeq) (h₁ : 1 ≤ limit) (h₂ : limit ≤ 1000)
    (hc : 1 ≤ c) (hfloor : resetNeeded t.publicSeqBounds c = false) :
    ∃ out, recoverLoop (fetchFrom server now t) (fun _ => true) limit (fuel + 1)
        { cursor := c, latestSeq := c, pages := 0 } [] = some (.ok out) ∧
      out.result.status = .caughtUp ∧
      out.applied =
        [(visiblePage server t c limit).filter fun row => row.seq ≤ maxSafeInteger] := by
  have hfetch : fetchFrom server now t c limit = .ok _ := fetchFrom_page henabled hfloor
  have hmax : max c (finiteSequence t.latestPublicSeq) = c := by
    rw [finiteSequence_of_beyond hbeyond]
    omega
  unfold recoverLoop
  simp only [Bool.not_true, Bool.false_eq_true, if_false, hfetch]
  rw [← recoveryPage]
  by_cases hnone :
      (visiblePage server t c limit).filter (fun row => row.seq ≤ maxSafeInteger) = []
  · rw [round_nothing h₁ h₂ hc hnone, hmax, if_pos (le_refl c), hnone]
    exact ⟨_, rfl, rfl, rfl⟩
  · obtain ⟨last, hlast⟩ : ∃ last, ((visiblePage server t c limit).filter
        fun row => row.seq ≤ maxSafeInteger).getLast? = some last :=
      ⟨_, List.getLast?_eq_some_getLast hnone⟩
    obtain ⟨hmem, hsafe⟩ := List.mem_filter.mp (List.mem_of_getLast? hlast)
    have hbounds := mem_rowsAfter (mem_visiblePage hmem)
    have hmove : c < pageCursor
        ((visiblePage server t c limit).filter fun row => row.seq ≤ maxSafeInteger)
        (recoveryPage server now t c limit) := by
      simp only [pageCursor, hlast, Option.map_some, Option.getD_some]
      rw [finiteSequence_of_safe (of_decide_eq_true hsafe)]
      omega
    rw [round_some h₁ h₂ hc hnone rfl hmove, hmax, if_pos (Int.le_of_lt hmove)]
    exact ⟨_, rfl, rfl, rfl⟩

/-- The part of the first page that is shown with safe sequences is everything
visible exactly when nothing visible lies beyond it. -/
theorem firstPage_eq_iff :
    (visiblePage server t c limit).filter (fun row => row.seq ≤ maxSafeInteger) =
        (rowsAfter t c).filter server.admits ↔
      ∀ row ∈ rowsAfter t c, server.admits row = true →
        row ∈ (rowsAfter t c).take limit.toNat ∧ row.seq ≤ maxSafeInteger := by
  constructor
  · intro heq row hrow hv
    have hmem := List.mem_filter.mpr ⟨hrow, hv⟩
    rw [← heq] at hmem
    obtain ⟨hpage, hsafe⟩ := List.mem_filter.mp hmem
    exact ⟨List.mem_of_mem_filter hpage, of_decide_eq_true hsafe⟩
  · intro hall
    have hsub : ((visiblePage server t c limit).filter fun row => row.seq ≤ maxSafeInteger).Sublist
        ((rowsAfter t c).filter server.admits) :=
      List.filter_sublist.trans ((List.take_sublist ..).filter _)
    have hnodup : ((rowsAfter t c).filter server.admits).Nodup :=
      ((pairwise_rowsAfter t c).filter _).imp fun hlt heq => by
        rw [heq] at hlt
        exact Int.lt_irrefl _ hlt
    refine hsub.eq_of_length_le (List.Subperm.length_le (List.subperm_of_subset hnodup fun row hrow => ?_))
    obtain ⟨hmem, hv⟩ := List.mem_filter.mp hrow
    obtain ⟨hpage, hsafe⟩ := hall row hmem hv
    exact List.mem_filter.mpr ⟨List.mem_filter.mpr ⟨hpage, hv⟩, decide_eq_true hsafe⟩

/-! ## The main result -/

/-- A recovery from `afterSeq` returns `caught-up`, having applied exactly the
admitted events behind the cursor in their order. -/
def CaughtUpWithAll (server : Server) (now : Int) (t : PublicEventTable) (afterSeq limit : Int)
    (fuel : Nat) : Prop :=
  ∃ out, recoverPublicEventPages (fetchFrom server now t) (fun _ => true) limit fuel afterSeq none =
      some (.ok out) ∧
    out.result.status = .caughtUp ∧
    out.applied.flatten = (rowsAfter t afterSeq).filter server.admits

/-- When a recovery is complete: the endpoint is on, the cursor is not below the
retained floor, no full page behind it is hidden altogether, and the last event
is visible. (With sequences beyond the safe integers everything visible would
have to be in the first page.) -/
def RecoverableFrom (server : Server) (t : PublicEventTable) (afterSeq limit : Int) : Prop :=
  server.publicEventsEnabled = true ∧ t.publicSeqBounds.1 ≤ afterSeq + 1 ∧
    if t.latestPublicSeq ≤ maxSafeInteger then
      PagesVisible server.admits limit.toNat (rowsAfter t afterSeq)
    else
      ∀ row ∈ rowsAfter t afterSeq, server.admits row = true →
        row ∈ (rowsAfter t afterSeq).take limit.toNat ∧ row.seq ≤ maxSafeInteger

theorem resetNeeded_eq_false_iff (hc : 1 ≤ c) (hcl : c ≤ t.latestPublicSeq) :
    resetNeeded t.publicSeqBounds c = false ↔ t.publicSeqBounds.1 ≤ c + 1 := by
  have hlatest : t.publicSeqBounds.2 = t.latestPublicSeq := rfl
  simp only [resetNeeded, Bool.or_eq_false_iff, Bool.and_eq_false_iff, decide_eq_false_iff_not]
  omega

variable (now limit) in
/-- Below the floor the server demands a reset, and the recovery says so. -/
theorem recoverLoop_reset (fuel : Nat) (L : Int) (henabled : server.publicEventsEnabled = true)
    (hc : 1 ≤ c) (hfloor : resetNeeded t.publicSeqBounds c = true) :
    ∃ out, recoverLoop (fetchFrom server now t) (fun _ => true) limit (fuel + 1)
        { cursor := c, latestSeq := L, pages := 0 } [] = some (.ok out) ∧
      out.result.status = .resetRequired := by
  have hfetch : fetchFrom server now t c limit = .ok (resetResponse now t.publicSeqBounds) := by
    simp [fetchFrom, publicEvents, henabled, hfloor, recoveryQuery]
  unfold recoverLoop
  simp only [Bool.not_true, Bool.false_eq_true, if_false, hfetch, recoverPageStep, resetResponse,
    if_true]
  exact ⟨_, rfl, if_neg (by omega)⟩

/-- **Completeness of recovery.** From a cursor between 1 and the latest
sequence, with any page size and any allow-list, a recovery ends `caught-up`
with exactly the admitted events behind the cursor if and only if no full page
of them is hidden altogether and the last one is visible. -/
theorem recoverPublicEventPages_complete_iff (server : Server) (now : Int) (t : PublicEventTable)
    (afterSeq limit : Int) (hlimit : 1 ≤ limit ∧ limit ≤ 1000)
    (hafter : 1 ≤ afterSeq ∧ afterSeq ≤ t.latestPublicSeq) (fuel : Nat)
    (hfuel : (rowsAfter t afterSeq).length < fuel) :
    CaughtUpWithAll server now t afterSeq limit fuel ↔
      RecoverableFrom server t afterSeq limit := by
  obtain ⟨h₁, h₂⟩ := hlimit
  obtain ⟨hc, hcl⟩ := hafter
  obtain ⟨fuel, rfl⟩ : ∃ n, fuel = n + 1 := ⟨fuel - 1, by omega⟩
  have hstart : recoverPublicEventPages (fetchFrom server now t) (fun _ => true) limit (fuel + 1)
      afterSeq none = recoverLoop (fetchFrom server now t) (fun _ => true) limit (fuel + 1)
        { cursor := afterSeq, latestSeq := afterSeq, pages := 0 } [] := by
    have hcursor : max 0 afterSeq = afterSeq := by omega
    have hlatest : max afterSeq (finiteSequence 0) = afterSeq := by
      rw [show finiteSequence 0 = 0 from rfl]
      omega
    simp [recoverPublicEventPages, hcursor, hlatest]
  unfold CaughtUpWithAll RecoverableFrom
  rw [hstart]
  by_cases henabled : server.publicEventsEnabled = true
  · by_cases hfloor : resetNeeded t.publicSeqBounds afterSeq = false
    · have hfloor' := (resetNeeded_eq_false_iff hc hcl).mp hfloor
      split
      · rename_i hsafe
        obtain ⟨out, hrun, hout⟩ := recoverLoop_completes now henabled hsafe h₁ h₂
          (fuel + 1) afterSeq afterSeq 0 [] hc hcl hcl hfloor hfuel
        simp only [hrun, Option.some.injEq, Except.ok.injEq, exists_eq_left', hout.caughtUp_iff,
          henabled, hfloor', true_and]
        exact ⟨And.left, fun hp => ⟨hp, by simpa using hout.applied_eq hp⟩⟩
      · rename_i hbeyond
        obtain ⟨out, hrun, hstatus, happlied⟩ := recoverLoop_unsafe now fuel
          henabled (by omega) h₁ h₂ hc hfloor
        simp only [hrun, Option.some.injEq, Except.ok.injEq, exists_eq_left', hstatus, happlied,
          List.flatten_cons, List.flatten_nil, List.append_nil, firstPage_eq_iff, henabled,
          hfloor', true_and]
    · obtain ⟨out, hrun, hstatus⟩ := recoverLoop_reset now limit fuel
        afterSeq henabled hc (Bool.eq_true_of_not_eq_false hfloor)
      have hfloor' : ¬ t.publicSeqBounds.1 ≤ afterSeq + 1 :=
        fun h => hfloor ((resetNeeded_eq_false_iff hc hcl).mpr h)
      simp [hrun, hstatus, hfloor']
  · have hfetch : fetchFrom server now t afterSeq limit = .error (404, "public events disabled") := by
      simp [fetchFrom, publicEvents, henabled]
    simp [recoverLoop, hfetch, henabled]

/-! ## A run -/

/-- A table that holds the given events and has never lost one. -/
def storedEvents (events : List PublicEvent) : PublicEventTable :=
  (PublicEventTable.empty.insertPublicEventsOnce 1 events).1

/-- Three events, the middle one in a region that the server does not publish. -/
def hiddenMiddle : PublicEventTable :=
  storedEvents [.sample "YOW" 1, .sample "YYZ" 1, .sample "YOW" 1]

def ottawaServer : Server :=
  { publicEventsEnabled := true, publicAllowsIATA := some (newPublicIATAFilter ["YOW"]) }

/-- With pages of two the hidden event shares its page with a visible one. -/
theorem recovery_of_hiddenMiddle :
    (1 ≤ (2 : Int) ∧ (2 : Int) ≤ 1000) ∧ (1 ≤ (1 : Int) ∧ 1 ≤ hiddenMiddle.latestPublicSeq) ∧
      CaughtUpWithAll ottawaServer 1 hiddenMiddle 1 2 3 := by
  refine ⟨by decide, by decide, ?_⟩
  refine (recoverPublicEventPages_complete_iff ottawaServer 1 hiddenMiddle 1 2 (by decide)
    (by decide) 3 (by decide)).mpr ⟨rfl, by decide, ?_⟩
  rw [if_pos (by decide)]
  exact (pagesVisible_short (by decide)).mpr (by decide)

/-- With pages of one the hidden event is a page of its own, and the browser
takes it for an unrecoverable gap. -/
theorem recovery_stops_at_hidden_page :
    ¬ ∀ (server : Server) (now : Int) (events : List PublicEvent) (afterSeq limit : Int),
      server.publicEventsEnabled = true → 1 ≤ limit ∧ limit ≤ 1000 →
      1 ≤ afterSeq ∧ afterSeq ≤ (storedEvents events).latestPublicSeq →
      ∃ fuel, CaughtUpWithAll server now (storedEvents events) afterSeq limit fuel := by
  intro h
  obtain ⟨fuel, out, hrun, hstatus, -⟩ := h ottawaServer 1
    [.sample "YOW" 1, .sample "YYZ" 1, .sample "YOW" 1] 1 1 rfl (by decide) (by decide)
  cases fuel with
  | zero => cases hrun
  | succ fuel =>
    have hgap : recoverPublicEventPages (fetchFrom ottawaServer 1 hiddenMiddle) (fun _ => true) 1
        (fuel + 1) 1 none =
      some (.ok
        { result := { status := .unrecoverableGap, cursor := 1, latestSeq := 3, pages := 1 }
          applied := [[]] }) := rfl
    rw [show storedEvents [.sample "YOW" 1, .sample "YYZ" 1, .sample "YOW" 1] =
      hiddenMiddle from rfl, hgap] at hrun
    cases hrun
    cases hstatus

end CartoLive.Theorems.Recovery
