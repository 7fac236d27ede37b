import CartoLive.App.Backend
import CartoLive.Store.RouteCounts
import CartoLive.Web.PacketRows

/-!
# One packet, one row

The packet of an edge reaches the packet list in three ways: as a row of the
history, as an activity and as a pulse. The three name its routes and labels
differently: the server sorts routes and drops repeated ones, the browser reads
them off the segments of a pulse; a row of an activity has no segments. So the
list shows the packet once only where the differences do not come into play.
-/

namespace CartoLive.Theorems.PacketIdentity

open CartoLive.Lib CartoLive.Go CartoLive.Live CartoLive.Store CartoLive.Web CartoLive.App

section Env

variable [LiveEnv]

/-! ## The rows of an edge -/

/-- The routes along the path of an edge. -/
def pathRoutes (edge : EdgeEvent) : List String := (mappableSegments edge).map segmentRoute

/-- The labels along the path. -/
def pathLabels (edge : EdgeEvent) : List String :=
  ((mappableSegments edge).head?.map fun segment =>
      displayLabel segment.source.name "unknown").toList ++
    (mappableSegments edge).map fun segment => displayLabel segment.target.name "unknown"

/-- An edge, and how the browser heard of it. -/
structure Heard where
  edge : EdgeEvent
  index : PathHash3Index
  hasActivity : Bool
  activitySeq : Int
  hasPulse : Bool
  pulseSeq : Int

/-- The activity in the browser state. -/
def Heard.activity (x : Heard) : List PublicActivity :=
  if x.hasActivity then
    ((publicActivityFromEdge x.edge).map fun item => { item with seq := x.activitySeq }).toList
  else []

/-- The pulse in the browser state. -/
def Heard.pulses (x : Heard) : List PublicRoutePulse :=
  if x.hasPulse then
    ((publicRoutePulseFromEdge x.edge x.index).map fun pulse =>
      { pulse with seq := x.pulseSeq }).toList
  else []

/-- The row of the history. -/
def Heard.history (x : Heard) : List PublicPacketPath := (publicPacketPath x.edge []).toList

/-- What the packet list shows: live rows, then the history. -/
def listed (xs : List Heard) : List PublicPacketPath :=
  dedupePackets (livePacketsFromActivity (xs.flatMap Heard.activity) (xs.flatMap Heard.pulses) ++
    xs.flatMap Heard.history)

variable {edge : EdgeEvent} {index : PathHash3Index}

theorem routes_map_publicSegment (edge : EdgeEvent) (index : PathHash3Index) :
    ((mappableSegments edge).map (publicSegment index)).map PublicRouteSegment.routeID =
      pathRoutes edge := by
  rw [List.map_map]
  rfl

theorem labels_map_publicSegment (edge : EdgeEvent) (index : PathHash3Index) :
    ((((mappableSegments edge).map (publicSegment index)).head?.map fun segment =>
        segment.source.label).toList ++
      ((mappableSegments edge).map (publicSegment index)).map fun segment =>
        segment.target.label) = pathLabels edge := by
  have hsource : (fun segment => segment.source.label) ∘ publicSegment index =
      fun segment => displayLabel segment.source.name "unknown" := by
    funext segment
    simp only [Function.comp_apply, publicSegment, publicEndpoint]
  have htarget : (fun segment => segment.target.label) ∘ publicSegment index =
      fun segment => displayLabel segment.target.name "unknown" := by
    funext segment
    simp only [Function.comp_apply, publicSegment, publicEndpoint]
  unfold pathLabels
  rw [List.head?_map, Option.map_map, List.map_map, hsource, htarget]

/-- What the row of a pulse says. -/
structure PulseRowOf (edge : EdgeEvent) (row : PublicPacketPath) : Prop where
  heardAt : row.heardAt = edge.heardAt
  payloadTypeName : row.payloadTypeName = edge.payloadTypeName
  routeIDs : row.routeIDs = pathRoutes edge
  endpointLabels : row.endpointLabels = (pathLabels edge).filter (· ≠ "")
  segmentCount : row.segmentCount = (mappableSegments edge).length

theorem Heard.pulses_eq {x : Heard} (hmappable : mappableSegments x.edge ≠ [])
    (hpulse : x.hasPulse = true) :
    ∃ pulse, x.pulses = [pulse] ∧ pulse.seq = x.pulseSeq ∧ pulse.id = pulseID x.edge.id ∧
      pulse.segments ≠ [] ∧ PulseRowOf x.edge (pulseRow pulse) ∧
      pulseKey pulse = livePacketKey x.edge.heardAt x.edge.payloadTypeName (pathRoutes x.edge) := by
  obtain ⟨pulse, hmade, hsegments, hid, hheard, -, hpayload, -⟩ := exists_pulse hmappable x.index
  refine ⟨{ pulse with seq := x.pulseSeq }, ?_, rfl, hid, ?_, ?_, ?_⟩
  · rw [pulses, if_pos hpulse, hmade]
    rfl
  · show pulse.segments ≠ []
    rw [hsegments]
    exact fun hnil => hmappable (List.map_eq_nil_iff.mp hnil)
  · exact
      { heardAt := hheard
        payloadTypeName := hpayload
        routeIDs := by
          show pulse.segments.map PublicRouteSegment.routeID = _
          rw [hsegments, routes_map_publicSegment]
        endpointLabels := by
          simp only [pulseRow]
          rw [hsegments, labels_map_publicSegment]
        segmentCount := by
          show (pulse.segments.length : Int) = _
          rw [hsegments, List.length_map] }
  · show livePacketKey pulse.heardAt pulse.payloadTypeName
      (pulse.segments.map PublicRouteSegment.routeID) = _
    rw [hheard, hpayload, hsegments, routes_map_publicSegment]

/-- The activity of an edge, with its key. -/
theorem Heard.activity_eq {x : Heard} (hmappable : mappableSegments x.edge ≠ [])
    (hactivity : x.hasActivity = true) :
    ∃ item, x.activity = [item] ∧ item.kind = "packet" ∧
      activityKey item = livePacketKey x.edge.heardAt x.edge.payloadTypeName
        (uniqueSorted (pathRoutes x.edge)) := by
  obtain ⟨pulse, hmade, hsegments, -⟩ := exists_pulse hmappable []
  have hitem : ∃ item, publicActivityFromEdge x.edge = some item ∧ item.kind = "packet" ∧
      activityKey item = livePacketKey x.edge.heardAt x.edge.payloadTypeName
        (uniqueSorted (pathRoutes x.edge)) := by
    unfold publicActivityFromEdge
    rw [hmade]
    refine ⟨_, rfl, rfl, ?_⟩
    show livePacketKey x.edge.heardAt x.edge.payloadTypeName
      (uniqueSorted (pulse.segments.map PublicRouteSegment.routeID)) = _
    rw [hsegments, routes_map_publicSegment]
  obtain ⟨item, hitem, hkind, hkey⟩ := hitem
  refine ⟨{ item with seq := x.activitySeq }, ?_, hkind, hkey⟩
  rw [activity, if_pos hactivity, hitem]
  rfl

/-- What the row of the history says. -/
structure HistoryRowOf (edge : EdgeEvent) (row : PublicPacketPath) : Prop where
  id : row.id = pulseID edge.id
  heardAt : row.heardAt = edge.heardAt
  payloadTypeName : row.payloadTypeName = trimSpace edge.payloadTypeName
  routeIDs : row.routeIDs = uniqueSorted (pathRoutes edge)
  endpointLabels : row.endpointLabels = uniqueConsecutive (pathLabels edge)
  segmentCount : row.segmentCount = (mappableSegments edge).length

theorem exists_historyRow (hmappable : mappableSegments edge ≠ []) :
    ∃ row, publicPacketPath edge [] = some row ∧ HistoryRowOf edge row := by
  have hsegments : (mappableSegments edge).map (publicSegment []) ≠ [] :=
    fun hnil => hmappable (List.map_eq_nil_iff.mp hnil)
  obtain ⟨pulse, hpulse, hpath, hid, hheard, -, hpayload, -⟩ := exists_pulse hmappable []
  unfold publicPacketPath
  rw [hpulse, Option.bind_some, publicPacketPathFromPulse_of_valid (hpath ▸ hsegments)
    (hpath ▸ validSegment_publicSegment)]
  refine ⟨_, rfl, ?_⟩
  exact
    { id := by rw [hid, trimSpace_pulseID]
      heardAt := hheard
      payloadTypeName := by rw [hpayload]
      routeIDs := by rw [hpath, routes_map_publicSegment]
      endpointLabels := by rw [hpath, labels_map_publicSegment]
      segmentCount := by rw [hpath, List.length_map] }

end Env

/-! ## Signatures -/

/-- The items of a list, joined as a signature joins them. -/
def joined (items : List String) : List Char := ['|'].intercalate (items.map String.toList)

theorem toList_signature (row : PublicPacketPath) :
    (signature row).toList = (toString row.heardAt).toList ++ ':' ::
      (row.payloadTypeName.toList ++ ':' :: (joined row.routeIDs ++ ':' ::
        (joined row.endpointLabels ++ ':' :: (toString row.segmentCount).toList))) := by
  have hcolon : ":".toList = [':'] := rfl
  have hbar : "|".toList = ['|'] := rfl
  simp only [signature, String.toList_append, String.toList_intercalate, hcolon, hbar, joined,
    List.append_assoc, List.cons_append, List.nil_append]

theorem colon_not_mem_toString (n : Int) : ':' ∉ (toString n).toList := fun h =>
  (mem_toString n _ h).elim (by decide) (by decide)

/-- Rows with as many segments have the same signature if the texts between agree. -/
theorem signature_eq_iff {row row' : PublicPacketPath} (hheard : row.heardAt = row'.heardAt)
    (hcount : row.segmentCount = row'.segmentCount) :
    signature row = signature row' ↔
      row.payloadTypeName.toList ++ ':' :: (joined row.routeIDs ++ ':' ::
          joined row.endpointLabels) =
        row'.payloadTypeName.toList ++ ':' :: (joined row'.routeIDs ++ ':' ::
          joined row'.endpointLabels) := by
  rw [← String.toList_inj, toList_signature, toList_signature, hheard, hcount]
  have hassoc : ∀ a b c d : List Char, a ++ ':' :: (b ++ ':' :: (c ++ ':' :: d)) =
      (a ++ ':' :: (b ++ ':' :: c)) ++ ':' :: d := by simp
  rw [List.append_cancel_left_eq, List.cons.injEq, and_iff_right rfl, hassoc, hassoc,
    List.append_cancel_right_eq]

/-- Rows with different numbers of segments differ. -/
theorem segmentCount_of_signature_eq {row row' : PublicPacketPath}
    (h : signature row = signature row') : row.segmentCount = row'.segmentCount := by
  have hlist := congrArg String.toList h
  rw [toList_signature, toList_signature] at hlist
  have hassoc : ∀ a b c d e : List Char,
      a ++ ':' :: (b ++ ':' :: (c ++ ':' :: (d ++ ':' :: e))) =
        (a ++ ':' :: (b ++ ':' :: (c ++ ':' :: d))) ++ ':' :: e := by simp
  rw [hassoc, hassoc] at hlist
  obtain ⟨-, hcount⟩ := append_cons_inj_last (colon_not_mem_toString _) (colon_not_mem_toString _)
    hlist
  exact toString_inj (String.toList_inj.mp hcount)

/-- Three texts that are each no longer than three others, and make as much
together, are those. -/
theorem parts_eq {a b c a' b' c' : List Char} (ha : a'.length ≤ a.length)
    (hb : b'.length ≤ b.length) (hc : c'.length ≤ c.length)
    (h : a ++ ':' :: (b ++ ':' :: c) = a' ++ ':' :: (b' ++ ':' :: c')) :
    a = a' ∧ b = b' ∧ c = c' := by
  have hlength := congrArg List.length h
  simp only [List.length_append, List.length_cons] at hlength
  obtain ⟨hfirst, hrest⟩ := List.append_inj h (by omega)
  obtain ⟨hsecond, hthird⟩ := List.append_inj (List.cons.inj hrest).2 (by omega)
  exact ⟨hfirst, hsecond, (List.cons.inj hthird).2⟩

theorem length_trimSpace_le (s : String) : (trimSpace s).toList.length ≤ s.toList.length := by
  unfold trimSpace
  rw [String.toList_ofList]
  exact (List.rdropWhile_prefix _ _).length_le.trans (List.dropWhile_suffix _).length_le

theorem length_joined_le_of_sublist {items items' : List String} (h : items.Sublist items') :
    (joined items).length ≤ (joined items').length := by
  unfold joined
  rw [length_intercalate, length_intercalate]
  exact Nat.sub_le_sub_right (spread_le_of_sublist (h.map _)) 1

theorem length_joined_uniqueSorted_le (items : List String) :
    (joined (uniqueSorted items)).length ≤ (joined items).length := by
  have hperm := List.perm_insertionSort (· ≤ ·) (items.dedup.filter (· ≠ ""))
  have hsame : (joined (uniqueSorted items)).length =
      (joined (items.dedup.filter (· ≠ ""))).length := by
    unfold joined uniqueSorted
    rw [length_intercalate, length_intercalate, spread_perm (hperm.map _)]
  rw [hsame]
  exact length_joined_le_of_sublist (List.filter_sublist.trans (List.dedup_sublist _))

theorem uniqueConsecutive_sublist (items : List String) :
    (uniqueConsecutive items).Sublist (items.filter (· ≠ "")) := List.destutter_sublist _ _

section Env

variable [LiveEnv]

/-! ## A pulse and the history -/

/-- Along the path of an edge routes are in order and none comes twice, no label
follows itself, and the payload type has nothing to trim. -/
structure InOrder (edge : EdgeEvent) : Prop where
  payloadTypeName : trimSpace edge.payloadTypeName = edge.payloadTypeName
  routes : uniqueSorted (pathRoutes edge) = pathRoutes edge
  labels : uniqueConsecutive (pathLabels edge) = (pathLabels edge).filter (· ≠ "")

theorem bar_not_mem_route {edge : EdgeEvent} {route : String} (h : route ∈ pathRoutes edge) :
    '|' ∉ route.toList ∧ ':' ∉ route.toList := by
  obtain ⟨segment, -, rfl⟩ := List.mem_map.mp h
  have hchars := mem_publicRouteID (P := fun c => c ≠ '|' ∧ c ≠ ':') (by decide) (by decide)
    (by decide) segment.source.nodeID segment.target.nodeID
  exact ⟨fun hbar => (hchars _ hbar).1 rfl, fun hcolon => (hchars _ hcolon).2 rfl⟩

theorem route_ne_empty {edge : EdgeEvent} {route : String} (h : route ∈ pathRoutes edge) :
    route ≠ "" := by
  obtain ⟨segment, -, rfl⟩ := List.mem_map.mp h
  exact publicRouteID_ne_empty _ _

omit [LiveEnv] in
/-- Items without a bar are told by what they make joined. -/
theorem joined_inj {items items' : List String} (hne : ∀ i ∈ items, i ≠ "")
    (hne' : ∀ i ∈ items', i ≠ "") (hfree : ∀ i ∈ items, '|' ∉ i.toList)
    (hfree' : ∀ i ∈ items', '|' ∉ i.toList) (h : joined items = joined items') :
    items = items' := by
  have hchars : ∀ {l : List String}, (∀ i ∈ l, i ≠ "") → ∀ c ∈ l.map String.toList, c ≠ [] := by
    intro l hl c hc
    obtain ⟨i, hi, rfl⟩ := List.mem_map.mp hc
    exact fun hnil => hl i hi (String.toList_eq_nil_iff.mp hnil)
  have hlists : items.map String.toList = items'.map String.toList := by
    rcases eq_or_ne items [] with rfl | hitems
    · exact eq_of_sublist_of_length_intercalate (List.nil_sublist _) (hchars hne')
        (congrArg List.length h)
    · rcases eq_or_ne items' [] with rfl | hitems'
      · exact (eq_of_sublist_of_length_intercalate (List.nil_sublist _) (hchars hne)
          (congrArg List.length h.symm)).symm
      · exact intercalate_inj (mt List.map_eq_nil_iff.mp hitems)
          (mt List.map_eq_nil_iff.mp hitems') (List.forall_mem_map.mpr hfree)
          (List.forall_mem_map.mpr hfree') h
  exact List.map_injective_iff.mpr (fun a b => String.toList_inj.mp) hlists

/-- The row of a pulse has the signature of the history's exactly if the path is in
order. -/
theorem signature_pulse_iff {edge : EdgeEvent} {live row : PublicPacketPath} (hlive : PulseRowOf edge live) (hrow : HistoryRowOf edge row) :
    signature live = signature row ↔ InOrder edge := by
  rw [signature_eq_iff (hlive.heardAt.trans hrow.heardAt.symm)
      (hlive.segmentCount.trans hrow.segmentCount.symm), hlive.payloadTypeName, hlive.routeIDs,
    hlive.endpointLabels, hrow.payloadTypeName, hrow.routeIDs, hrow.endpointLabels]
  constructor
  · intro h
    obtain ⟨hpayload, hroutes, hlabels⟩ := parts_eq (length_trimSpace_le _)
      (length_joined_uniqueSorted_le _)
      (length_joined_le_of_sublist (uniqueConsecutive_sublist _)) h
    refine ⟨(String.toList_inj.mp hpayload).symm, ?_, ?_⟩
    · exact (joined_inj (fun r => route_ne_empty) (fun r hr => (mem_uniqueSorted.mp hr).1)
        (fun r hr => (bar_not_mem_route hr).1)
        (fun r hr => (bar_not_mem_route (mem_uniqueSorted.mp hr).2).1) hroutes).symm
    · have hsub := (uniqueConsecutive_sublist (pathLabels edge)).map String.toList
      have hsame := eq_of_sublist_of_length_intercalate (s := '|') hsub (fun l hl => by
        obtain ⟨label, hlabel, rfl⟩ := List.mem_map.mp hl
        have hne := of_decide_eq_true (List.mem_filter.mp hlabel).2
        exact fun hnil => hne (String.toList_eq_nil_iff.mp hnil)) (congrArg List.length hlabels.symm)
      exact List.map_injective_iff.mpr (fun a b => String.toList_inj.mp) hsame
  · intro h
    rw [h.payloadTypeName, h.routes, h.labels]

/-! ## The live rows -/

/-- An edge whose rows agree: an activity comes with a pulse, and a pulse is in
order. -/
structure Regular (x : Heard) : Prop where
  activity : x.hasActivity = true → x.hasPulse = true
  pulse : x.hasPulse = true → InOrder x.edge

theorem Heard.pulses_nil {x : Heard} (h : x.hasPulse = false) : x.pulses = [] := by
  rw [pulses, h]
  rfl

theorem Heard.activity_nil {x : Heard} (h : x.hasActivity = false) : x.activity = [] := by
  rw [activity, h]
  rfl

omit [LiveEnv] in
theorem isLive_pulseRow (pulse : PublicRoutePulse) : isLive (pulseRow pulse) = true := by
  simp [isLive, pulseRow, String.toList_append]

omit [LiveEnv] in
theorem isLive_activityRow (item : PublicActivity) : isLive (activityRow item) = true := by
  simp [isLive, activityRow, String.toList_append]

theorem isLive_historyRow {edge : EdgeEvent} {row : PublicPacketPath} (h : HistoryRowOf edge row) :
    isLive row = false := by
  have hid : row.id.toList = "pulse-".toList ++ (toString edge.id).toList := by
    rw [h.id, pulseID, String.toList_append]
  rw [isLive, hid]
  rfl

omit [LiveEnv] in
/-- The live rows, in some order. -/
theorem livePackets_perm (activity : List PublicActivity) (pulses : List PublicRoutePulse)
    (hshown : ∀ pulse ∈ pulses, pulse.segments ≠ []) :
    (livePacketsFromActivity activity pulses).Perm
      (pulses.map pulseRow ++ (activity.filter fun item =>
        (item.kind = "packet" ∨ item.kind = "route") ∧
          activityKey item ∉ pulses.map pulseKey).map activityRow) := by
  have hall : (pulses.filter fun pulse => pulse.segments ≠ []) = pulses :=
    List.filter_eq_self.mpr fun pulse hpulse => decide_eq_true (hshown pulse hpulse)
  unfold livePacketsFromActivity
  rw [hall]
  exact List.perm_insertionSort _ _

/-- The activity of an edge that agrees has no row of its own. -/
theorem Regular.activityKey_mem {x : Heard} (h : Regular x) (hmappable : mappableSegments x.edge ≠ [])
    {item : PublicActivity} (hitem : item ∈ x.activity) :
    activityKey item ∈ x.pulses.map pulseKey := by
  cases hactivity : x.hasActivity with
  | false =>
    rw [Heard.activity_nil hactivity] at hitem
    cases hitem
  | true =>
    have hpulse := h.activity hactivity
    obtain ⟨item', hitem', -, hkey⟩ := Heard.activity_eq hmappable hactivity
    obtain ⟨pulse, hpulses, -, -, -, -, hpulseKey⟩ := Heard.pulses_eq hmappable hpulse
    rw [hitem'] at hitem
    rw [List.mem_singleton.mp hitem, hkey, hpulses, List.map_singleton, hpulseKey,
      (h.pulse hpulse).routes]
    exact List.mem_singleton_self _

/-- The live rows of edges that agree are those of their pulses. -/
theorem livePackets_regular (xs : List Heard)
    (hmappable : ∀ x ∈ xs, mappableSegments x.edge ≠ []) (hregular : ∀ x ∈ xs, Regular x) :
    (livePacketsFromActivity (xs.flatMap Heard.activity) (xs.flatMap Heard.pulses)).Perm
      ((xs.flatMap Heard.pulses).map pulseRow) := by
  have hshown : ∀ pulse ∈ xs.flatMap Heard.pulses, pulse.segments ≠ [] := by
    intro pulse hpulse
    obtain ⟨x, hx, hin⟩ := List.mem_flatMap.mp hpulse
    cases hhas : x.hasPulse with
    | false =>
      rw [Heard.pulses_nil hhas] at hin
      cases hin
    | true =>
      obtain ⟨pulse', hpulses, -, -, hne, -⟩ := Heard.pulses_eq (hmappable x hx) hhas
      rw [hpulses] at hin
      exact List.mem_singleton.mp hin ▸ hne
  have hnone : ((xs.flatMap Heard.activity).filter fun item =>
      (item.kind = "packet" ∨ item.kind = "route") ∧
        activityKey item ∉ (xs.flatMap Heard.pulses).map pulseKey) = [] := by
    refine List.filter_eq_nil_iff.mpr fun item hitem hkept => ?_
    obtain ⟨x, hx, hin⟩ := List.mem_flatMap.mp hitem
    obtain ⟨pulse, hpulse, hkey⟩ := List.mem_map.mp
      ((hregular x hx).activityKey_mem (hmappable x hx) hin)
    exact (of_decide_eq_true hkept).2 (List.mem_map.mpr
      ⟨pulse, List.mem_flatMap.mpr ⟨x, hx, hpulse⟩, hkey⟩)
  have hperm := livePackets_perm (xs.flatMap Heard.activity) _ hshown
  rw [hnone, List.map_nil, List.append_nil] at hperm
  exact hperm

/-! ## One edge -/

/-- The packet of an edge is listed once. -/
def ListedOnce (x : Heard) : Prop := (listed [x]).length = 1

omit [LiveEnv] in
/-- Live rows before the one row of a history. -/
theorem length_dedupe_one {live : List PublicPacketPath} (hlive : ∀ l ∈ live, isLive l = true)
    (hids : (live.map PublicPacketPath.id).Nodup) {row : PublicPacketPath}
    (hrow : isLive row = false) :
    (dedupePackets (live ++ [row])).length =
      live.length + if signature row ∈ live.map signature then 0 else 1 := by
  rw [dedupePackets_eq hlive hids (by simpa using hrow), List.length_append, keptHistory,
    keptHistory, keptHistory]
  split <;> rfl

omit [LiveEnv] in
theorem id_pulseRow_ne_activityRow (pulse : PublicRoutePulse) (item : PublicActivity) :
    (pulseRow pulse).id ≠ (activityRow item).id := by
  intro h
  have hchars := congrArg (fun s => s.toList[5]?) h
  simp [pulseRow, activityRow, String.toList_append] at hchars

/-- A pulse that leaves one row is in order. -/
theorem inOrder_of_length {x : Heard} (hmappable : mappableSegments x.edge ≠ [])
    {pulse : PublicRoutePulse} (hsegments : pulse.segments ≠ [])
    (hpulse : PulseRowOf x.edge (pulseRow pulse)) {row : PublicPacketPath}
    (hrow : HistoryRowOf x.edge row)
    (hlength : (dedupePackets
      (livePacketsFromActivity x.activity [pulse] ++ [row])).length = 1) : InOrder x.edge := by
  have hnotlive := isLive_historyRow hrow
  have hperm := livePackets_perm x.activity [pulse] (by simpa using hsegments)
  have hfew : ∀ p : PublicActivity → Bool, x.activity.filter p = [] ∨
      ∃ item, x.activity.filter p = [item] := by
    intro p
    cases hactivity : x.hasActivity with
    | false => exact .inl (by rw [Heard.activity_nil hactivity, List.filter_nil])
    | true =>
      obtain ⟨item, hitem, -⟩ := Heard.activity_eq hmappable hactivity
      rw [hitem, List.filter_singleton]
      cases p item with
      | false => exact .inl rfl
      | true => exact .inr ⟨item, rfl⟩
  rcases hfew _ with hnone | ⟨item, hone⟩
  · -- the one row is that of the pulse, so the history's is dropped
    rw [hnone, List.map_nil, List.append_nil, List.map_singleton, List.perm_singleton] at hperm
    rw [hperm, length_dedupe_one (by simpa using isLive_pulseRow pulse) (by simp) hnotlive]
      at hlength
    by_cases hin : signature row ∈ [pulseRow pulse].map signature
    · exact (signature_pulse_iff hpulse hrow).mp (List.mem_singleton.mp hin).symm
    · rw [if_neg hin] at hlength
      simp at hlength
  · -- two live rows
    rw [hone] at hperm
    have hids : [(pulseRow pulse).id, (activityRow item).id].Nodup := by
      simpa using id_pulseRow_ne_activityRow pulse item
    have hlive : ∀ l ∈ livePacketsFromActivity x.activity [pulse], isLive l = true := by
      intro l hl
      rcases List.mem_append.mp (hperm.mem_iff.mp hl) with hl | hl
      · exact List.mem_singleton.mp hl ▸ isLive_pulseRow pulse
      · exact List.mem_singleton.mp hl ▸ isLive_activityRow item
    rw [length_dedupe_one hlive ((hperm.map _).nodup_iff.mpr hids) hnotlive, hperm.length_eq]
      at hlength
    simp only [List.map_singleton, List.length_append, List.length_singleton] at hlength
    omega

/-- The packet of an edge is listed once exactly if its rows agree. -/
theorem listedOnce_iff {x : Heard} (hmappable : mappableSegments x.edge ≠ []) :
    ListedOnce x ↔ Regular x := by
  obtain ⟨row, hmade, hrow⟩ := exists_historyRow hmappable
  have hhistory : x.history = [row] := by rw [Heard.history, hmade]; rfl
  have hnotlive := isLive_historyRow hrow
  unfold ListedOnce listed
  simp only [List.flatMap_singleton, hhistory]
  cases hpulse : x.hasPulse with
  | false =>
    rw [Heard.pulses_nil hpulse]
    cases hactivity : x.hasActivity with
    | false =>
      -- the history alone
      rw [Heard.activity_nil hactivity]
      refine iff_of_true ?_ ⟨fun h => ?_, fun h => ?_⟩
      · exact length_dedupe_one (fun _ h => absurd h List.not_mem_nil) List.nodup_nil hnotlive
      · rw [hactivity] at h
        cases h
      · rw [hpulse] at h
        cases h
    | true =>
      -- an activity has no segments, so the row of the history stays beside it
      obtain ⟨item, hitem, hkind, -⟩ := Heard.activity_eq hmappable hactivity
      have hlive : livePacketsFromActivity x.activity [] = [activityRow item] := by
        simp [hitem, livePacketsFromActivity, hkind]
      have hne : signature row ∉ [activityRow item].map signature := by
        intro hin
        have hsame := segmentCount_of_signature_eq (List.mem_singleton.mp hin)
        rw [hrow.segmentCount] at hsame
        have hzero : ((mappableSegments x.edge).length : Int) = 0 := hsame
        have := List.length_pos_iff.mpr hmappable
        omega
      rw [hlive, length_dedupe_one (by simpa using isLive_activityRow item) (by simp) hnotlive,
        if_neg hne]
      refine iff_of_false (by simp) fun h => ?_
      rw [h.activity hactivity] at hpulse
      cases hpulse
  | true =>
    obtain ⟨pulse, hpulses, -, -, hsegments, hpulseRow, hpulseKey⟩ :=
      Heard.pulses_eq hmappable hpulse
    have hperm := livePackets_perm x.activity [pulse] (by simpa using hsegments)
    by_cases hregular : Regular x
    · -- the row of the pulse stands for all
      have hlive := livePackets_regular [x] (by simpa using hmappable)
        (by simpa using hregular)
      simp only [List.flatMap_singleton, hpulses, List.map_singleton] at hlive
      rw [hpulses, List.perm_singleton.mp hlive,
        length_dedupe_one (by simpa using isLive_pulseRow pulse) (by simp) hnotlive,
        if_pos (by
          rw [List.map_singleton, List.mem_singleton]
          exact ((signature_pulse_iff hpulseRow hrow).mpr (hregular.pulse hpulse)).symm)]
      exact iff_of_true rfl hregular
    · refine iff_of_false (fun hlength => hregular ⟨fun _ => hpulse, fun _ => ?_⟩) hregular
      rw [hpulses] at hlength
      exact inOrder_of_length hmappable hsegments hpulseRow hrow hlength

/-! ## Two edges -/

/-- The texts of a signature between the time and the number of segments. -/
def texts (edge : EdgeEvent) : List Char :=
  (trimSpace edge.payloadTypeName).toList ++ ':' :: (joined (uniqueSorted (pathRoutes edge)) ++
    ':' :: joined (uniqueConsecutive (pathLabels edge)))

/-- Two paths that a signature does not tell. -/
def Ambiguous (a b : EdgeEvent) : Prop :=
  a.heardAt = b.heardAt ∧ (mappableSegments a).length = (mappableSegments b).length ∧
    texts a = texts b

theorem signature_history_iff {a b : EdgeEvent} {row row' : PublicPacketPath}
    (h : HistoryRowOf a row) (h' : HistoryRowOf b row') :
    signature row = signature row' ↔ Ambiguous a b := by
  have htexts : ∀ {edge row}, HistoryRowOf edge row → row.payloadTypeName.toList ++ ':' ::
      (joined row.routeIDs ++ ':' :: joined row.endpointLabels) = texts edge := by
    intro edge row h
    rw [h.payloadTypeName, h.routeIDs, h.endpointLabels, texts]
  constructor
  · intro hsame
    have hheard : row.heardAt = row'.heardAt := by
      have hlist := congrArg String.toList hsame
      rw [toList_signature, toList_signature] at hlist
      exact toString_inj (String.toList_inj.mp (append_cons_inj (colon_not_mem_toString _)
        (colon_not_mem_toString _) hlist).1)
    have hcount := segmentCount_of_signature_eq hsame
    have hbetween := (signature_eq_iff hheard hcount).mp hsame
    rw [htexts h, htexts h'] at hbetween
    rw [h.heardAt, h'.heardAt] at hheard
    rw [h.segmentCount, h'.segmentCount] at hcount
    exact ⟨hheard, by omega, hbetween⟩
  · rintro ⟨hheard, hcount, hbetween⟩
    refine (signature_eq_iff (by rw [h.heardAt, h'.heardAt, hheard])
      (by rw [h.segmentCount, h'.segmentCount, hcount])).mpr ?_
    rw [htexts h, htexts h', hbetween]

/-- Both packets have their row. -/
def Apart (x y : Heard) : Prop := (listed [x, y]).length = 2

/-- Two edges that are heard of by messages of their own. -/
structure Distinct (x y : Heard) : Prop where
  edges : x.edge.id ≠ y.edge.id
  pulses : x.pulseSeq = y.pulseSeq → x.pulseSeq = 0

omit [LiveEnv] in
/-- A sequence is not the identifier of a pulse. -/
theorem toString_ne_pulseID (n id : Int) : toString n ≠ pulseID id := by
  intro h
  have hp : 'p' ∈ (toString n).toList := by
    rw [h, pulseID, String.toList_append]
    exact List.mem_append_left _ (by decide)
  exact (mem_toString n _ hp).elim (by decide) (by decide)

omit [LiveEnv] in
theorem id_pulseRow_ne {x y : Heard} (hdistinct : Distinct x y) {p q : PublicRoutePulse}
    (hp : p.seq = x.pulseSeq ∧ p.id = pulseID x.edge.id)
    (hq : q.seq = y.pulseSeq ∧ q.id = pulseID y.edge.id) : (pulseRow p).id ≠ (pulseRow q).id := by
  intro h
  have hids : seqOrID p.seq p.id = seqOrID q.seq q.id := (String.append_right_inj _).mp h
  rw [hp.1, hp.2, hq.1, hq.2] at hids
  unfold seqOrID at hids
  split at hids <;> split at hids
  · exact hdistinct.edges (pulseID_inj hids)
  · exact toString_ne_pulseID _ _ hids.symm
  · exact toString_ne_pulseID _ _ hids
  · rename_i hseq _
    exact hseq (hdistinct.pulses (toString_inj hids))

/-- Two edges whose rows agree have two rows between them, unless a signature does
not tell them and one has no pulse. -/
theorem apart_iff {x y : Heard} (hx : mappableSegments x.edge ≠ [])
    (hy : mappableSegments y.edge ≠ []) (hdistinct : Distinct x y) (hxr : Regular x)
    (hyr : Regular y) :
    Apart x y ↔ (x.hasPulse = true ∧ y.hasPulse = true) ∨ ¬ Ambiguous x.edge y.edge := by
  obtain ⟨row, hmade, hrow⟩ := exists_historyRow hx
  obtain ⟨row', hmade', hrow'⟩ := exists_historyRow hy
  have hhistory : [x, y].flatMap Heard.history = [row, row'] := by
    simp [Heard.history, hmade, hmade']
  have hnotlive : ∀ h ∈ [row, row'], isLive h = false := by
    simpa using ⟨isLive_historyRow hrow, isLive_historyRow hrow'⟩
  have hperm := livePackets_regular [x, y] (by simpa using ⟨hx, hy⟩) (by simpa using ⟨hxr, hyr⟩)
  have hlive : ∀ l ∈ livePacketsFromActivity ([x, y].flatMap Heard.activity)
      ([x, y].flatMap Heard.pulses), isLive l = true := by
    intro l hl
    obtain ⟨pulse, -, rfl⟩ := List.mem_map.mp (hperm.mem_iff.mp hl)
    exact isLive_pulseRow pulse
  have hambiguous := signature_history_iff hrow hrow'
  have hfew : ∀ {z r}, Regular z → mappableSegments z.edge ≠ [] → HistoryRowOf z.edge r →
      z.hasPulse = true → ∃ pulse, z.pulses = [pulse] ∧ pulse.seq = z.pulseSeq ∧
        pulse.id = pulseID z.edge.id ∧ signature (pulseRow pulse) = signature r := by
    intro z r hzr hz hr hpulse
    obtain ⟨pulse, hpulses, hseq, hid, -, hpulseRow, -⟩ := Heard.pulses_eq hz hpulse
    exact ⟨pulse, hpulses, hseq, hid, (signature_pulse_iff hpulseRow hr).mpr (hzr.pulse hpulse)⟩
  unfold Apart listed
  rw [hhistory]
  cases hxp : x.hasPulse with
  | true =>
    obtain ⟨p, hp, hpseq, hpid, hpsig⟩ := hfew hxr hx hrow hxp
    cases hyp : y.hasPulse with
    | true =>
      -- two pulses, and no row of the history
      obtain ⟨q, hq, hqseq, hqid, hqsig⟩ := hfew hyr hy hrow' hyp
      have hids : [(pulseRow p).id, (pulseRow q).id].Nodup := by
        simpa using id_pulseRow_ne hdistinct ⟨hpseq, hpid⟩ ⟨hqseq, hqid⟩
      have hpulses : [x, y].flatMap Heard.pulses = [p, q] := by simp [hp, hq]
      rw [hpulses] at hperm hlive ⊢
      have hmem : ∀ r, signature r ∈ (livePacketsFromActivity ([x, y].flatMap Heard.activity)
          [p, q]).map signature ↔ signature r = signature row ∨ signature r = signature row' := by
        intro r
        rw [(hperm.map signature).mem_iff]
        simp [hpsig, hqsig]
      rw [dedupePackets_eq hlive ((hperm.map _).nodup_iff.mpr hids) hnotlive, List.length_append,
        hperm.length_eq, keptHistory, if_pos ((hmem row).mpr (.inl rfl)), keptHistory,
        if_pos ((hmem row').mpr (.inr rfl)), keptHistory]
      exact iff_of_true rfl (.inl ⟨rfl, rfl⟩)
    | false =>
      have hpulses : [x, y].flatMap Heard.pulses = [p] := by simp [hp, Heard.pulses_nil hyp]
      rw [hpulses, List.map_singleton, List.perm_singleton] at hperm
      rw [hpulses, hperm] at hlive
      rw [hpulses, hperm, dedupePackets_eq hlive (by simp) hnotlive, ← hambiguous]
      -- the first row of the history goes
      by_cases hsame : signature row = signature row'
      · simp [keptHistory, hpsig, hsame]
      · simp [keptHistory, hpsig, hsame, Ne.symm hsame]
  | false =>
    cases hyp : y.hasPulse with
    | true =>
      obtain ⟨q, hq, -, -, hqsig⟩ := hfew hyr hy hrow' hyp
      have hpulses : [x, y].flatMap Heard.pulses = [q] := by simp [hq, Heard.pulses_nil hxp]
      rw [hpulses, List.map_singleton, List.perm_singleton] at hperm
      rw [hpulses, hperm] at hlive
      rw [hpulses, hperm, dedupePackets_eq hlive (by simp) hnotlive, ← hambiguous]
      -- the second goes
      by_cases hsame : signature row = signature row'
      · simp [keptHistory, hqsig, hsame]
      · simp [keptHistory, hqsig, hsame]
    | false =>
      have hpulses : [x, y].flatMap Heard.pulses = [] := by
        simp [Heard.pulses_nil hxp, Heard.pulses_nil hyp]
      rw [hpulses, List.map_nil, List.perm_nil] at hperm
      rw [hpulses, hperm] at hlive
      rw [hpulses, hperm, dedupePackets_eq hlive (by simp) hnotlive, ← hambiguous]
      by_cases hsame : signature row = signature row'
      · simp [keptHistory, hsame]
      · simp [keptHistory, hsame, Ne.symm hsame]

/-- The rows of two edges differ in time, payload type, set of routes or labels. -/
def Differ (a b : EdgeEvent) : Prop :=
  a.heardAt ≠ b.heardAt ∨ a.payloadTypeName ≠ b.payloadTypeName ∨
    (∃ route, ¬ (route ∈ pathRoutes a ↔ route ∈ pathRoutes b)) ∨
    uniqueConsecutive (pathLabels a) ≠ uniqueConsecutive (pathLabels b)

/-- Texts that do not hold the separators of a signature, and a payload type with
nothing to trim. -/
structure Plain (edge : EdgeEvent) : Prop where
  payloadTypeName : trimSpace edge.payloadTypeName = edge.payloadTypeName
  colon : ':' ∉ edge.payloadTypeName.toList
  bar : ∀ label ∈ pathLabels edge, '|' ∉ label.toList

omit [LiveEnv] in
theorem colon_not_mem_joined {items : List String} (h : ∀ i ∈ items, ':' ∉ i.toList) :
    ':' ∉ joined items := by
  induction items with
  | nil => exact List.not_mem_nil
  | cons first items ih =>
    have hfirst := h first List.mem_cons_self
    have hrest := ih fun i hi => h i (List.mem_cons_of_mem _ hi)
    cases items with
    | nil => simpa [joined] using hfirst
    | cons second items =>
      have hstep : joined (first :: second :: items) =
          first.toList ++ ('|' :: joined (second :: items)) := by
        simp only [joined, List.map_cons, List.intercalate_cons_cons, List.append_assoc,
          List.singleton_append]
      rw [hstep, List.mem_append, List.mem_cons]
      rintro (hin | hbar | hin)
      · exact hfirst hin
      · exact absurd hbar (by decide)
      · exact hrest hin

/-- A signature tells plain edges that differ. -/
theorem not_ambiguous_of_differ {a b : EdgeEvent} (ha : Plain a) (hb : Plain b)
    (hdiffer : Differ a b) : ¬ Ambiguous a b := by
  rintro ⟨hheard, -, htexts⟩
  unfold texts at htexts
  rw [ha.payloadTypeName, hb.payloadTypeName] at htexts
  have hroutesFree : ∀ edge, ∀ r ∈ uniqueSorted (pathRoutes edge), '|' ∉ r.toList ∧ ':' ∉ r.toList :=
    fun edge r hr => bar_not_mem_route (mem_uniqueSorted.mp hr).2
  obtain ⟨hpayload, hrest⟩ := append_cons_inj ha.colon hb.colon htexts
  obtain ⟨hroutes, hlabels⟩ := append_cons_inj
    (colon_not_mem_joined fun r hr => (hroutesFree a r hr).2)
    (colon_not_mem_joined fun r hr => (hroutesFree b r hr).2) hrest
  have hsorted := joined_inj (fun r hr => (mem_uniqueSorted.mp hr).1)
    (fun r hr => (mem_uniqueSorted.mp hr).1) (fun r hr => (hroutesFree a r hr).1)
    (fun r hr => (hroutesFree b r hr).1) hroutes
  have hshown : ∀ {edge label}, label ∈ uniqueConsecutive (pathLabels edge) →
      label ≠ "" ∧ label ∈ pathLabels edge := fun hlabel => by
    obtain ⟨hin, hne⟩ := List.mem_filter.mp ((uniqueConsecutive_sublist _).mem hlabel)
    exact ⟨of_decide_eq_true hne, hin⟩
  rcases hdiffer with hdiffer | hdiffer | ⟨route, hdiffer⟩ | hdiffer
  · exact hdiffer hheard
  · exact hdiffer (String.toList_inj.mp hpayload)
  · refine hdiffer ⟨fun hin => ?_, fun hin => ?_⟩
    · exact (mem_uniqueSorted.mp (hsorted ▸ mem_uniqueSorted.mpr ⟨route_ne_empty hin, hin⟩)).2
    · exact (mem_uniqueSorted.mp (hsorted ▸ mem_uniqueSorted.mpr ⟨route_ne_empty hin, hin⟩)).2
  · exact hdiffer (joined_inj (fun l hl => (hshown hl).1) (fun l hl => (hshown hl).1)
      (fun l hl => ha.bar l (hshown hl).2) (fun l hl => hb.bar l (hshown hl).2) hlabels)

/-- Each packet has one row, and packets that differ have rows of their own. -/
structure OneIdentity (x y : Heard) : Prop where
  left : ListedOnce x
  right : ListedOnce y
  apart : Differ x.edge y.edge → Apart x y

/-- An edge without a mappable segment has no row. -/
theorem mappable_of_listedOnce {x : Heard} (h : ListedOnce x) : mappableSegments x.edge ≠ [] := by
  intro hnil
  have hnone := fun index => (publicRoutePulseFromEdge_eq_none_iff x.edge index).mpr hnil
  have hactivity : x.activity = [] := by
    simp [Heard.activity, publicActivityFromEdge, hnone]
  have hpulses : x.pulses = [] := by simp [Heard.pulses, hnone]
  have hhistory : x.history = [] := by simp [Heard.history, publicPacketPath, hnone]
  have hlisted : listed [x] = [] := by
    simp [listed, hactivity, hpulses, hhistory, livePacketsFromActivity, dedupePackets]
  rw [ListedOnce, hlisted] at h
  cases h

/-- An edge that has a row, and whose rows agree. -/
def Shown (x : Heard) : Prop := mappableSegments x.edge ≠ [] ∧ Regular x

theorem listedOnce_iff_shown {x : Heard} : ListedOnce x ↔ Shown x :=
  ⟨fun h => ⟨mappable_of_listedOnce h, (listedOnce_iff (mappable_of_listedOnce h)).mp h⟩,
    fun h => (listedOnce_iff h.1).mpr h.2⟩

/-- **One packet, one row**, exactly where an activity is heard with its pulse, a
pulse runs along a path in order, and a signature tells the edges if one of them
has no pulse. -/
theorem one_identity_iff {x y : Heard} (hdistinct : Distinct x y) :
    OneIdentity x y ↔ Shown x ∧ Shown y ∧
      (Differ x.edge y.edge → (x.hasPulse = true ∧ y.hasPulse = true) ∨
        ¬ Ambiguous x.edge y.edge) := by
  constructor
  · rintro ⟨hleft, hright, hapart⟩
    have hx := listedOnce_iff_shown.mp hleft
    have hy := listedOnce_iff_shown.mp hright
    exact ⟨hx, hy, fun hdiffer =>
      (apart_iff hx.1 hy.1 hdistinct hx.2 hy.2).mp (hapart hdiffer)⟩
  · rintro ⟨hx, hy, htold⟩
    exact
      { left := listedOnce_iff_shown.mpr hx
        right := listedOnce_iff_shown.mpr hy
        apart := fun hdiffer =>
          (apart_iff hx.1 hy.1 hdistinct hx.2 hy.2).mpr (htold hdiffer) }

/-- Plain edges that differ need no pulse to be told. -/
theorem one_identity_of_plain {x y : Heard} (hdistinct : Distinct x y) (hx : Shown x)
    (hy : Shown y) (hplain : Plain x.edge) (hplain' : Plain y.edge) : OneIdentity x y :=
  { left := listedOnce_iff_shown.mpr hx
    right := listedOnce_iff_shown.mpr hy
    apart := fun hdiffer => (apart_iff hx.1 hy.1 hdistinct hx.2 hy.2).mpr
      (.inr (not_ambiguous_of_differ hplain hplain' hdiffer)) }

end Env

/-! ## A path of two hops -/

section Paths

attribute [local instance] defaultEnv

/-- Edges through the nodes given, with an activity and a pulse. -/
def hops (id : Int) (nodes : List String) : Heard where
  edge :=
    { sampleEdge with
      id
      segments := (nodes.zip nodes.tail).map fun ends =>
        { source := sampleEndpoint ends.1 (.fin 45)
          target := sampleEndpoint ends.2 (.fin 46)
          distanceKM := .fin 111 } }
  index := []
  hasActivity := true
  activitySeq := 2 * id
  hasPulse := true
  pulseSeq := 2 * id + 1

theorem distinct_hops {id id' : Int} (nodes nodes' : List String) (h : id ≠ id') :
    Distinct (hops id nodes) (hops id' nodes') where
  edges := h
  pulses := by
    intro hseq
    have hsame : 2 * id + 1 = 2 * id' + 1 := hseq
    omega

theorem shown_hops {id : Int} {nodes : List String}
    (hmappable : mappableSegments (hops id nodes).edge ≠ [])
    (hroutes : uniqueSorted (pathRoutes (hops id nodes).edge) = pathRoutes (hops id nodes).edge)
    (hlabels : uniqueConsecutive (pathLabels (hops id nodes).edge) =
      (pathLabels (hops id nodes).edge).filter (· ≠ "")) : Shown (hops id nodes) :=
  ⟨hmappable, fun _ => rfl, fun _ =>
    { payloadTypeName := by
        show trimSpace "ADVERT" = "ADVERT"
        decide +kernel
      routes := hroutes
      labels := hlabels }⟩

/-- Routes that happen to be in order. -/
theorem there_listed_once : OneIdentity (hops 1 ["A", "B", "C"]) (hops 2 ["A", "B"]) :=
  (one_identity_iff (distinct_hops _ _ (by decide))).mpr
    ⟨shown_hops (by decide +kernel) (by decide +kernel) (by decide +kernel),
      shown_hops (by decide +kernel) (by decide +kernel) (by decide +kernel),
      fun _ => .inl ⟨rfl, rfl⟩⟩

/-- The way back is listed three times: by its pulse, its activity and the history. -/
theorem way_back_listed_thrice : ¬ ∀ x y : Heard, Distinct x y → mappableSegments x.edge ≠ [] →
    mappableSegments y.edge ≠ [] → OneIdentity x y := by
  intro h
  have hone := (h (hops 1 ["C", "B", "A"]) (hops 2 ["A", "B"]) (distinct_hops _ _ (by decide))
    (by decide +kernel) (by decide +kernel)).left
  have hthrice : (listed [hops 1 ["C", "B", "A"]]).length = 3 := by decide +kernel
  rw [ListedOnce, hthrice] at hone
  omega

end Paths

end CartoLive.Theorems.PacketIdentity
