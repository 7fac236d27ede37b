import CartoLive.Lib.Tally
import CartoLive.Live.PacketPaths
import CartoLive.Store.LiveState

/-!
# Packet counts of routes

Every committed edge counts once on each of its segments. These are the facts
that follow an edge through the projection into `public_route_summaries`, and
from there and from the recent edges into the routes of a public state.
-/

namespace CartoLive.Store

open CartoLive.Lib CartoLive.Go CartoLive.Live

/-! ## Route identifiers -/

theorem mem_toDigitsCore {P : Char → Prop} (hdigit : ∀ n < 16, P n.digitChar) {fuel n : Nat}
    {digits : List Char} (h : ∀ c ∈ digits, P c) :
    ∀ c ∈ Nat.toDigitsCore 16 fuel n digits, P c := by
  induction fuel generalizing n digits with
  | zero => exact h
  | succ fuel ih =>
    have hdigits : ∀ c ∈ (n % 16).digitChar :: digits, P c := by
      intro c hc
      rcases List.mem_cons.mp hc with rfl | hc
      · exact hdigit _ (Nat.mod_lt n (by decide))
      · exact h c hc
    unfold Nat.toDigitsCore
    dsimp only
    split
    · exact hdigits
    · exact ih hdigits

/-- The characters of a route identifier. -/
theorem mem_publicRouteID {P : Char → Prop} (hr : P 'r') (hdash : P '-')
    (hdigit : ∀ n < 16, P n.digitChar) (a b : String) : ∀ c ∈ (publicRouteID a b).toList, P c := by
  intro c hc
  simp only [publicRouteID, hex8, String.toList_append, String.toList_ofList, List.mem_append] at hc
  rcases hc with hc | hc | hc
  · have hr' : c ∈ ['r', '-'] := hc
    simp only [List.mem_cons, List.not_mem_nil, or_false] at hr'
    rcases hr' with rfl | rfl
    · exact hr
    · exact hdash
  · rw [List.eq_of_mem_replicate hc]
    exact hdigit 0 (by decide)
  · exact mem_toDigitsCore hdigit (by simp) c hc

/-- A route identifier is printable, so trimming keeps it. -/
theorem trimSpace_publicRouteID (a b : String) : trimSpace (publicRouteID a b) = publicRouteID a b := by
  have hchars : ∀ c ∈ (publicRouteID a b).toList, isSpace c = false :=
    mem_publicRouteID (by decide) (by decide) (by decide) a b
  unfold trimSpace
  have hdrop : (publicRouteID a b).toList.dropWhile isSpace = (publicRouteID a b).toList := by
    cases hl : (publicRouteID a b).toList with
    | nil => rfl
    | cons c cs => exact List.dropWhile_cons_of_neg (by simp [hchars c (by simp [hl])])
  have hrdrop : (publicRouteID a b).toList.rdropWhile isSpace = (publicRouteID a b).toList := by
    refine List.rdropWhile_eq_self_iff.mpr fun hne => ?_
    simp [hchars _ (List.getLast_mem hne)]
  rw [hdrop, hrdrop, String.ofList_toList]

theorem publicRouteID_ne_empty (a b : String) : publicRouteID a b ≠ "" := by
  intro h
  have := congrArg String.toList h
  simp [publicRouteID, String.toList_append] at this

/-- The route of a segment. -/
def segmentRoute (segment : EdgeSegment) : String :=
  publicRouteID segment.source.nodeID segment.target.nodeID

/-- What a segment adds to a route. -/
def segmentWeight (r : String) (segment : PublicRouteSegment) : Int :=
  if segment.routeID = r then 1 else 0

/-! ## Route summaries -/

/-- Routes as rows with a count. -/
def routeCounting : Counting PublicRoute String :=
  { key := PublicRoute.id, count := PublicRoute.packetCount }

theorem id_summaryRow (edge : EdgeEvent) (index : PathHash3Index) (segment : EdgeSegment) :
    (Database.summaryRow edge (publicSegment index segment)).id = segmentRoute segment :=
  trimSpace_publicRouteID segment.source.nodeID segment.target.nodeID

/-- The segment of an edge adds one to its route. -/
theorem upsertSegment_eq_bump (edge : EdgeEvent) (rows : List PublicRoute) (index : PathHash3Index)
    (segment : EdgeSegment) :
    Database.upsertSegment edge rows (publicSegment index segment) =
      routeCounting.bump (segmentRoute segment)
        (fun r => { Database.summaryRow edge (publicSegment index segment) with
          packetCount := r.packetCount + 1
          lastHeard := max r.lastHeard edge.heardAt
          payloadTypeNames := Database.payloadTypes r.payloadTypeNames edge.payloadTypeName })
        { Database.summaryRow edge (publicSegment index segment) with
          payloadTypeNames := Database.payloadTypes [] edge.payloadTypeName } rows := by
  unfold Database.upsertSegment Counting.bump
  simp only [id_summaryRow]
  exact if_neg (publicRouteID_ne_empty _ _)

theorem nodup_upsertSegment (edge : EdgeEvent) (index : PathHash3Index) (segment : EdgeSegment)
    {rows : List PublicRoute} (h : (rows.map PublicRoute.id).Nodup) :
    ((Database.upsertSegment edge rows (publicSegment index segment)).map PublicRoute.id).Nodup := by
  rw [upsertSegment_eq_bump]
  refine Counting.nodup_bump (t := routeCounting) (fun _ _ => ?_) ?_ h
  · exact id_summaryRow edge index segment
  · exact id_summaryRow edge index segment

theorem tally_upsertSegment (edge : EdgeEvent) (index : PathHash3Index) (segment : EdgeSegment)
    (r : String) {rows : List PublicRoute} (h : (rows.map PublicRoute.id).Nodup) :
    routeCounting.tally r (Database.upsertSegment edge rows (publicSegment index segment)) =
      routeCounting.tally r rows + segmentWeight r (publicSegment index segment) := by
  rw [upsertSegment_eq_bump]
  refine Counting.tally_bump (t := routeCounting) (fun _ _ => ?_) ?_ (fun _ _ => rfl) rfl h r
  · exact id_summaryRow edge index segment
  · exact id_summaryRow edge index segment

/-! ## The count of an edge -/

section Env

variable [LiveEnv]

/-- How often an edge counts on a route. -/
def edgeCount (r : String) (edge : EdgeEvent) : Int :=
  (mappableSegments edge).countP fun segment => segmentRoute segment = r

theorem edgeCount_congr {edge edge' : EdgeEvent} (h : edge.segments = edge'.segments) (r : String) :
    edgeCount r edge = edgeCount r edge' := by
  rw [edgeCount, edgeCount, mappableSegments, mappableSegments, h]

theorem sum_segmentWeight (r : String) (edge : EdgeEvent) (index : PathHash3Index) :
    ((((mappableSegments edge).map (publicSegment index)).map (segmentWeight r)).sum) =
      edgeCount r edge := by
  unfold edgeCount
  induction mappableSegments edge with
  | nil => rfl
  | cons segment segments ih =>
    rw [List.map_cons, List.map_cons, List.sum_cons, ih, List.countP_cons]
    have hid : (publicSegment index segment).routeID = segmentRoute segment := rfl
    rw [segmentWeight, hid]
    by_cases h : segmentRoute segment = r
    · simp only [h, if_true, decide_true]
      push_cast
      omega
    · simp [h]

/-! ## Pulses -/

/-- The segments of a pulse. -/
theorem segments_of_pulse {edge : EdgeEvent} {index : PathHash3Index} {pulse : PublicRoutePulse}
    (h : publicRoutePulseFromEdge edge index = some pulse) :
    pulse.segments = (mappableSegments edge).map (publicSegment index) := by
  unfold publicRoutePulseFromEdge at h
  dsimp only at h
  split at h <;> cases h
  rfl

theorem edgeCount_of_no_pulse {edge : EdgeEvent} {index : PathHash3Index}
    (h : publicRoutePulseFromEdge edge index = none) (r : String) : edgeCount r edge = 0 := by
  rw [edgeCount, (publicRoutePulseFromEdge_eq_none_iff edge index).mp h]
  rfl

/-- What the pulse of an edge carries for a route. -/
theorem sum_segmentWeight_pulse {edge : EdgeEvent} {index : PathHash3Index}
    {pulse : PublicRoutePulse} (h : publicRoutePulseFromEdge edge index = some pulse) (r : String) :
    (pulse.segments.map (segmentWeight r)).sum = edgeCount r edge := by
  rw [segments_of_pulse h, sum_segmentWeight]

/-! ## A database whose summaries count its projected edges -/

/-- Without deletes, every summary counts exactly the projected edges. -/
structure Database.Consistent (db : Database) : Prop where
  sequence : 0 ≤ db.edgeSequence
  ids : (db.edges.map EdgeEvent.id).Nodup
  bounded : ∀ edge ∈ db.edges, 0 < edge.id ∧ edge.id ≤ db.edgeSequence
  projected_le : ∀ id ∈ db.projected, id ≤ db.edgeSequence
  keys : (db.summaries.map PublicRoute.id).Nodup
  counted : ∀ r, routeCounting.tally r db.summaries =
    ((db.edges.filter fun edge => edge.id ∈ db.projected).map (edgeCount r)).sum

theorem consistent_emptyDatabase : emptyDatabase.Consistent where
  sequence := le_refl 0
  ids := List.nodup_nil
  bounded := by simp [emptyDatabase]
  projected_le := by simp [emptyDatabase]
  keys := List.nodup_nil
  counted := fun _ => rfl

/-- A new edge is not projected yet. -/
theorem Database.Consistent.append {db : Database} (h : db.Consistent) (edge : EdgeEvent)
    {db' : Database} (hedges : db'.edges = db.edges ++ [{ edge with id := db.edgeSequence + 1 }])
    (hsequence : db'.edgeSequence = db.edgeSequence + 1) (hprojected : db'.projected = db.projected)
    (hsummaries : db'.summaries = db.summaries) : db'.Consistent := by
  have hnonneg := h.sequence
  have hunprojected : db.edgeSequence + 1 ∉ db.projected := fun hin => by
    have := h.projected_le _ hin
    omega
  exact
    { sequence := by omega
      ids := by
        rw [hedges, List.map_append]
        refine List.Nodup.append h.ids (List.nodup_singleton _) ?_
        intro id hid hnew
        obtain ⟨old, hold, rfl⟩ := List.mem_map.mp hid
        have hid' : old.id = db.edgeSequence + 1 := List.mem_singleton.mp hnew
        have := h.bounded old hold
        omega
      bounded := fun e he => by
        rw [hedges] at he
        rcases List.mem_append.mp he with hold | hnew
        · have := h.bounded e hold
          omega
        · rw [List.mem_singleton.mp hnew, hsequence]
          show 0 < db.edgeSequence + 1 ∧ db.edgeSequence + 1 ≤ db.edgeSequence + 1
          omega
      projected_le := fun id hid => by
        have := h.projected_le id (hprojected ▸ hid)
        omega
      keys := hsummaries ▸ h.keys
      counted := fun r => by
        rw [hsummaries, hprojected, hedges, List.filter_append, h.counted r]
        simp [hunprojected] }

omit [LiveEnv] in
/-- Adding one of the keyed items of a list to a selection adds its weight. -/
theorem sum_filter_insert {items : List EdgeEvent} {selected : List Int} {weigh : EdgeEvent → Int}
    (hids : (items.map EdgeEvent.id).Nodup) {row : EdgeEvent} (hrow : row ∈ items)
    (hnew : row.id ∉ selected) :
    ((items.filter fun edge => edge.id ∈ selected ++ [row.id]).map weigh).sum =
      ((items.filter fun edge => edge.id ∈ selected).map weigh).sum + weigh row := by
  induction items with
  | nil => simp at hrow
  | cons x items ih =>
    rw [List.map_cons, List.nodup_cons] at hids
    rcases List.mem_cons.mp hrow with rfl | hrow
    · have hrest : (items.filter fun edge => edge.id ∈ selected ++ [row.id]) =
          items.filter fun edge => edge.id ∈ selected := by
        refine List.filter_congr fun y hy => ?_
        have hne : y.id ≠ row.id := fun heq => hids.1 (heq ▸ List.mem_map_of_mem hy)
        simp [hne]
      rw [List.filter_cons_of_pos (by simp), List.filter_cons_of_neg (by simpa using hnew), hrest,
        List.map_cons, List.sum_cons]
      omega
    · have hne : x.id ≠ row.id := fun heq => hids.1 (heq ▸ List.mem_map_of_mem hrow)
      have ih' := ih hids.2 hrow
      by_cases hx : x.id ∈ selected
      · rw [List.filter_cons_of_pos (by simp [hx]), List.filter_cons_of_pos (by simp [hx])]
        simp only [List.map_cons, List.sum_cons]
        omega
      · rw [List.filter_cons_of_neg (by simp [hx, hne]), List.filter_cons_of_neg (by simp [hx])]
        exact ih'

/-- The rows of an edge's segments after a projection. -/
theorem tally_foldl_upsertSegment {edge : EdgeEvent} {index : PathHash3Index}
    {pulse : PublicRoutePulse} (hpulse : publicRoutePulseFromEdge edge index = some pulse)
    {rows : List PublicRoute} (h : (rows.map PublicRoute.id).Nodup) :
    ((pulse.segments.foldl (Database.upsertSegment edge) rows).map PublicRoute.id).Nodup ∧
      ∀ r, routeCounting.tally r (pulse.segments.foldl (Database.upsertSegment edge) rows) =
        routeCounting.tally r rows + edgeCount r edge := by
  have hfold := Counting.tally_foldl (t := routeCounting)
    (fun rows segment hrows => nodup_upsertSegment edge index segment hrows)
    (fun rows segment r hrows => tally_upsertSegment edge index segment r hrows)
    (mappableSegments edge) h
  rw [segments_of_pulse hpulse, List.foldl_map]
  refine ⟨hfold.1, fun r => (hfold.2 r).trans ?_⟩
  rw [← sum_segmentWeight r edge index, List.map_map]
  rfl

@[simp] theorem edges_upsert (db : Database) (edge : EdgeEvent) :
    (db.upsertPublicRouteSummariesTx edge).edges = db.edges := by
  unfold Database.upsertPublicRouteSummariesTx
  split
  · rfl
  · dsimp only
    split <;> rfl

@[simp] theorem edgeSequence_upsert (db : Database) (edge : EdgeEvent) :
    (db.upsertPublicRouteSummariesTx edge).edgeSequence = db.edgeSequence := by
  unfold Database.upsertPublicRouteSummariesTx
  split
  · rfl
  · dsimp only
    split <;> rfl

theorem projected_upsert (db : Database) (edge : EdgeEvent) :
    (db.upsertPublicRouteSummariesTx edge).projected =
      if edge.id ≤ 0 ∨ edge.id ∈ db.projected then db.projected else db.projected ++ [edge.id] := by
  unfold Database.upsertPublicRouteSummariesTx
  split
  · rfl
  · dsimp only
    split <;> rfl

/-- A projected edge is a stored one, as far as its segments go. -/
def Database.Knows (db : Database) (edge : EdgeEvent) : Prop :=
  ∃ row ∈ db.edges, row.id = edge.id ∧ row.segments = edge.segments

/-- Projecting a stored edge keeps the summaries in step. -/
theorem Database.Consistent.upsert {db : Database} (h : db.Consistent) {edge : EdgeEvent}
    (hknown : db.Knows edge) : (db.upsertPublicRouteSummariesTx edge).Consistent := by
  obtain ⟨row, hrow, hid, hsegments⟩ := hknown
  by_cases hskip : edge.id ≤ 0 ∨ edge.id ∈ db.projected
  · rw [Database.upsertPublicRouteSummariesTx, if_pos hskip]
    exact h
  · have hcounted : (routeCounting.tally · (db.upsertPublicRouteSummariesTx edge).summaries) =
          (fun r => routeCounting.tally r db.summaries + edgeCount r edge) ∧
        ((db.upsertPublicRouteSummariesTx edge).summaries.map PublicRoute.id).Nodup := by
      rw [Database.upsertPublicRouteSummariesTx, if_neg hskip]
      dsimp only
      split
      · rename_i hnone
        refine ⟨funext fun r => ?_, h.keys⟩
        rw [edgeCount_of_no_pulse hnone r, Int.add_zero]
      · rename_i pulse hpulse
        obtain ⟨hnodup, htally⟩ := tally_foldl_upsertSegment hpulse h.keys
        exact ⟨funext htally, hnodup⟩
    have hprojected := projected_upsert db edge
    rw [if_neg hskip] at hprojected
    push Not at hskip
    exact
      { sequence := by rw [edgeSequence_upsert]; exact h.sequence
        ids := by rw [edges_upsert]; exact h.ids
        bounded := by rw [edges_upsert, edgeSequence_upsert]; exact h.bounded
        projected_le := fun id hin => by
          rw [hprojected] at hin
          rw [edgeSequence_upsert]
          rcases List.mem_append.mp hin with hold | hnew
          · exact h.projected_le id hold
          · rw [List.mem_singleton.mp hnew, ← hid]
            exact (h.bounded row hrow).2
        keys := hcounted.2
        counted := fun r => by
          have hr : routeCounting.tally r (db.upsertPublicRouteSummariesTx edge).summaries =
            routeCounting.tally r db.summaries + edgeCount r edge := congrFun hcounted.1 r
          rw [hr, edges_upsert, hprojected, ← hid,
            sum_filter_insert h.ids hrow (hid ▸ hskip.2), h.counted r, edgeCount_congr hsegments] }

/-- Projecting stored edges keeps the summaries in step, and projects them. -/
theorem Database.Consistent.foldl_upsert {db : Database} (h : db.Consistent)
    (edges : List EdgeEvent) (hknown : ∀ edge ∈ edges, db.Knows edge) :
    (edges.foldl Database.upsertPublicRouteSummariesTx db).Consistent ∧
      (edges.foldl Database.upsertPublicRouteSummariesTx db).edges = db.edges ∧
      (edges.foldl Database.upsertPublicRouteSummariesTx db).edgeSequence = db.edgeSequence ∧
      ∀ id, id ∈ db.projected ∨ 0 < id ∧ id ∈ edges.map EdgeEvent.id →
        id ∈ (edges.foldl Database.upsertPublicRouteSummariesTx db).projected := by
  induction edges generalizing db with
  | nil =>
    exact ⟨h, rfl, rfl, fun _ hid => hid.elim (fun hold => hold) fun hin => absurd hin.2 List.not_mem_nil⟩
  | cons edge edges ih =>
    have hknown' : ∀ e ∈ edges, (db.upsertPublicRouteSummariesTx edge).Knows e := fun e he => by
      obtain ⟨row, hrow, heq⟩ := hknown e (List.mem_cons_of_mem _ he)
      exact ⟨row, by rwa [edges_upsert], heq⟩
    obtain ⟨hc, he, hs, hp⟩ := ih (h.upsert (hknown edge List.mem_cons_self)) hknown'
    refine ⟨hc, he.trans (edges_upsert db edge), hs.trans (edgeSequence_upsert db edge),
      fun id hid => hp id ?_⟩
    rw [projected_upsert]
    rcases hid with hold | ⟨hpos, hin⟩
    · left
      split
      · exact hold
      · exact List.mem_append_left _ hold
    · rcases List.mem_cons.mp hin with rfl | hin
      · left
        split
        · rename_i hskip
          exact hskip.resolve_left (by omega)
        · exact List.mem_append_right _ List.mem_cons_self
      · exact Or.inr ⟨hpos, hin⟩

/-- `public_route_summaries` once all committed edges are projected. -/
def Database.projectAll (db : Database) : Database :=
  db.edges.foldl Database.upsertPublicRouteSummariesTx db

/-- Once everything is projected, a summary counts every committed edge. -/
theorem Database.Consistent.tally_projectAll {db : Database} (h : db.Consistent) (r : String) :
    routeCounting.tally r db.projectAll.summaries = (db.edges.map (edgeCount r)).sum := by
  obtain ⟨hc, hedges, -, hprojected⟩ := h.foldl_upsert db.edges fun edge hedge =>
    ⟨edge, hedge, rfl, rfl⟩
  rw [Database.projectAll, hc.counted r, hedges]
  congr 2
  refine List.filter_eq_self.mpr fun edge hedge => decide_eq_true ?_
  exact hprojected edge.id (Or.inr ⟨(h.bounded edge hedge).1, List.mem_map_of_mem hedge⟩)

/-- Other tables have no part in it. -/
theorem Database.Consistent.congr {db db' : Database} (h : db.Consistent)
    (hedges : db'.edges = db.edges) (hsequence : db'.edgeSequence = db.edgeSequence)
    (hprojected : db'.projected = db.projected) (hsummaries : db'.summaries = db.summaries) :
    db'.Consistent where
  sequence := by rw [hsequence]; exact h.sequence
  ids := by rw [hedges]; exact h.ids
  bounded := by rw [hedges, hsequence]; exact h.bounded
  projected_le := by rw [hprojected, hsequence]; exact h.projected_le
  keys := by rw [hsummaries]; exact h.keys
  counted := by rw [hsummaries, hedges, hprojected]; exact h.counted

theorem Database.Consistent.backfill {db : Database} (h : db.Consistent) (since until_ limit : Int) :
    (db.backfillPublicRouteSummaries since until_ limit).Consistent ∧
      (db.backfillPublicRouteSummaries since until_ limit).edges = db.edges ∧
      (db.backfillPublicRouteSummaries since until_ limit).edgeSequence = db.edgeSequence := by
  have hknown : ∀ n, ∀ edge ∈ db.missingEdges since until_ n, db.Knows edge := fun n edge hedge => by
    obtain ⟨row, hrow, rfl⟩ := List.mem_map.mp hedge
    have hmem := (List.mem_insertionSort _).mp (List.mem_of_mem_take hrow)
    exact ⟨row, List.mem_of_mem_filter hmem, rfl, rfl⟩
  obtain ⟨hc, he, hs, -⟩ := h.foldl_upsert _ (hknown _)
  exact ⟨hc, he, hs⟩

end Env

end CartoLive.Store
