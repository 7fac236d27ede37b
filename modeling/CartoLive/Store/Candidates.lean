import CartoLive.Store.Nodes

/-!
# Candidates

What node tables keep while the calls of `nodes.go` write them
(`NodeTables.Wf`): a node is known by its key and by its identifier, and a short
identifier is made of the first bytes of its key, so a key has one prefix for
each region and size. From it, what `CandidatesByPrefix` answers: the nodes that
are listed under a prefix, each once (`Wf.candidates`).
-/

namespace CartoLive.Store

open CartoLive.Go CartoLive.Lib CartoLive.Live CartoLive.Meshcore CartoLive.Resolve

variable {t t' : NodeTables}

/-! ## The tables -/

/-- The short identifier is made of the first bytes of the key. -/
structure NodeShortIDRow.Derived (row : NodeShortIDRow) : Prop where
  prefixHex : row.prefixHex = String.ofList (row.publicKey.toList.take (row.hashSize * 2))
  hashSize : row.hashSize = 1 ∨ row.hashSize = 2 ∨ row.hashSize = 3
  enough : row.hashSize * 2 ≤ row.publicKey.toList.length

structure NodeTables.Wf (t : NodeTables) : Prop where
  publicKeys : (t.nodes.map NodeRow.publicKey).Nodup
  nodeIDs : (t.nodes.map NodeRow.nodeID).Nodup
  shortKeys : (t.nodeShortIDs.map NodeShortIDRow.counting.key).Nodup
  derived : ∀ row ∈ t.nodeShortIDs, row.Derived

namespace NodeTables

theorem Wf.upsertNode (h : t.Wf) {row : NodeRow} {update : NodeRow → NodeRow}
    (hexec : t.upsertNode row update = some t') (hkey : ∀ n, (update n).publicKey = n.publicKey)
    (hid : ∀ n, (update n).nodeID = n.nodeID) : t'.Wf := by
  obtain ⟨hallowed, hexec⟩ := Option.ite_none_left_eq_some.mp hexec
  cases hexec
  refine ⟨?_, ?_, h.shortKeys, h.derived⟩
  · exact Counting.nodup_bump (t := NodeRow.counting) (fun n hn => (hkey n).trans hn) rfl
      h.publicKeys
  · show ((NodeRow.counting.bump _ _ _ _).map NodeRow.nodeID).Nodup
    unfold Counting.bump
    split
    · have hids : (t.nodes.map fun n => if NodeRow.counting.key n = row.publicKey then update n else n).map
          NodeRow.nodeID = t.nodes.map NodeRow.nodeID := by
        rw [List.map_map]
        refine List.map_congr_left fun n _ => ?_
        by_cases hn : NodeRow.counting.key n = row.publicKey
        · simp [hn, hid]
        · simp [hn]
      rw [hids]
      exact h.nodeIDs
    · rename_i hnew
      have hfresh : row.nodeID ∉ t.nodes.map NodeRow.nodeID := fun hused =>
        hallowed ⟨fun hknown => hnew (Counting.mem_keys_iff_any (t := NodeRow.counting).mpr hknown), hused⟩
      rw [List.map_append, List.map_singleton, ← List.concat_eq_append]
      exact h.nodeIDs.concat hfresh

theorem Wf.upsertShortID (h : t.Wf) {row : NodeShortIDRow} (hrow : row.Derived)
    (hexec : t.upsertShortID row = some t') : t'.Wf := by
  obtain ⟨-, hexec⟩ := Option.ite_none_right_eq_some.mp hexec
  cases hexec
  refine ⟨h.publicKeys, h.nodeIDs, ?_, ?_⟩
  · refine Counting.nodup_bump (t := NodeShortIDRow.counting) (fun r hr => ?_) rfl h.shortKeys
    exact hr
  · intro si hsi
    rcases Counting.mem_bump (t := NodeShortIDRow.counting) hsi with
      ⟨old, hold, -, rfl⟩ | ⟨hold, -⟩ | ⟨-, rfl⟩
    · obtain ⟨hhex, hsize, henough⟩ := h.derived old hold
      exact ⟨hhex, hsize, henough⟩
    · exact h.derived si hold
    · exact hrow


theorem derived_of_mem_shortIDStatements {publicKey iata role : String} {seenAt : Int}
    {row : NodeShortIDRow}
    (h : NodeStatement.shortID row ∈ shortIDStatements publicKey iata role seenAt) :
    row.Derived := by
  obtain ⟨size, hsize, hrow⟩ := List.mem_map.mp h
  obtain ⟨hmem, henough⟩ := List.mem_filter.mp hsize
  cases hrow
  exact ⟨rfl, by simpa [shortIDRow] using hmem, of_decide_eq_true henough⟩

theorem derived_of_mem_statements [LiveEnv] {m : NodeMutation} {row : NodeShortIDRow}
    (h : NodeStatement.shortID row ∈ m.statements) : row.Derived := by
  cases m with
  | advert nodeID iata advert heardAt =>
    have h : NodeStatement.shortID row ∈
        shortIDStatements advert.publicKey iata advert.role heardAt := by
      simpa [NodeMutation.statements, upsertAdvertNode] using h
    exact derived_of_mem_shortIDStatements h
  | status nodeID status =>
    have h : NodeStatement.shortID row ∈
        shortIDStatements status.publisherPK status.iata status.role status.heardAt := by
      simpa [NodeMutation.statements, upsertStatusNode] using h
    exact derived_of_mem_shortIDStatements h
  | manual nodeID publicKey name lat lng source now =>
    simp only [NodeMutation.statements, applyManualNode] at h
    split at h
    · simp at h
    · cases h

theorem Wf.exec [LiveEnv] (h : t.Wf) {stmt : NodeStatement}
    (hstmt : ∀ row, stmt = .shortID row → row.Derived) (hexec : NodeTables.exec stmt t = some t') :
    t'.Wf := by
  cases stmt with
  | advert nodeID advert heardAt =>
    exact h.upsertNode hexec (fun _ => rfl) fun _ => rfl
  | status nodeID status =>
    exact h.upsertNode hexec (fun _ => rfl) fun _ => rfl
  | manual nodeID publicKey name lat lng source now =>
    exact h.upsertNode hexec (fun _ => rfl) fun _ => rfl
  | nodeIATA publicKey iata seenAt =>
    obtain ⟨-, hexec⟩ := Option.ite_none_right_eq_some.mp hexec
    cases hexec
    exact ⟨h.publicKeys, h.nodeIDs, h.shortKeys, h.derived⟩
  | shortID row => exact h.upsertShortID (hstmt row rfl) hexec
  | readNode publicKey =>
    obtain ⟨_, -, rfl⟩ := Option.map_eq_some_iff.mp hexec
    exact h

/-- Tables that calls have written are well formed. -/
theorem wf_of_reachable [LiveEnv] (h : nodeStore.Reachable t) : t.Wf := by
  induction h with
  | init hinit => exact hinit ▸ ⟨List.nodup_nil, List.nodup_nil, List.nodup_nil, nofun⟩
  | @step t t' a _ _ hstep ih =>
    obtain ⟨stmt, hstmt, hexec⟩ := Option.bind_eq_some_iff.mp hstep
    refine ih.exec (fun row hrow => ?_) hexec
    exact derived_of_mem_statements (m := a.1) (hrow ▸ List.mem_of_getElem? hstmt)

/-! ## Candidates -/

/-- The node has the short identifier in the region. -/
structure Listed (t : NodeTables) (iata : String) (hashSize : Nat) (chunk : String) (n : NodeRow) :
    Prop where
  stored : n ∈ t.nodes
  shortID : ∃ si ∈ t.nodeShortIDs, si.publicKey = n.publicKey ∧ si.iata = upperTrim iata ∧
    si.hashSize = hashSize ∧ si.prefixHex = chunk

/-- The node is a candidate that forwards packets. -/
structure Forwarder (t : NodeTables) (roles : List String) (iata : String) (hashSize : Nat)
    (chunk : String) (n : NodeRow) : Prop extends Listed t iata hashSize chunk n where
  role : n.role ∈ forwarderRoles roles

/-- The candidate of a node in a region. -/
def candidateOf (iata : String) (n : NodeRow) : Candidate :=
  { nodeID := n.nodeID, publicKey := n.publicKey, name := n.name, role := n.role
    iata := upperTrim iata, latitude := n.latitude, longitude := n.longitude }

section Candidates

variable {iata chunk : String} {hashSize : Nat}

/-- The rows that `CandidatesByPrefix` selects. -/
def selected (t : NodeTables) (iata : String) (hashSize : Nat) (chunk : String) :
    List NodeShortIDRow :=
  t.nodeShortIDs.filter fun si =>
    si.iata = upperTrim iata ∧ si.hashSize = hashSize ∧ si.prefixHex = chunk

/-- The selected rows joined with their nodes. -/
def selectedNodes (t : NodeTables) (iata : String) (hashSize : Nat) (chunk : String) :
    List (NodeShortIDRow × NodeRow) :=
  (t.selected iata hashSize chunk).flatMap fun si =>
    (t.nodes.filter fun n => n.publicKey = si.publicKey).map fun n => (si, n)

/-- A key has one row for a region, a size and a prefix. -/
theorem Wf.nodup_selected (h : t.Wf) :
    ((t.selected iata hashSize chunk).map NodeShortIDRow.publicKey).Nodup := by
  have hrows : (t.selected iata hashSize chunk).Nodup := (h.shortKeys.of_map _).filter _
  refine hrows.map_on fun a ha b hb hkey => ?_
  obtain ⟨hmema, hselecteda⟩ := List.mem_filter.mp ha
  obtain ⟨hmemb, hselectedb⟩ := List.mem_filter.mp hb
  obtain ⟨hiata, hsize, hprefix⟩ := of_decide_eq_true hselecteda
  obtain ⟨hiatab, hsizeb, hprefixb⟩ := of_decide_eq_true hselectedb
  refine List.inj_on_of_nodup_map h.shortKeys hmema hmemb ?_
  simp only [NodeShortIDRow.counting, hkey, hiata, hiatab, hsize, hsizeb, hprefix, hprefixb]

/-- No node is joined twice. -/
theorem Wf.nodup_selectedNodes (h : t.Wf) :
    ((t.selectedNodes iata hashSize chunk).map Prod.snd).Nodup := by
  have hflat : (t.selectedNodes iata hashSize chunk).map Prod.snd =
      (t.selected iata hashSize chunk).flatMap fun si =>
        t.nodes.filter fun n => n.publicKey = si.publicKey := by
    rw [selectedNodes, List.map_flatMap]
    refine List.flatMap_congr fun si _ => ?_
    rw [List.map_map]
    exact List.map_id _
  rw [hflat, List.nodup_flatMap]
  refine ⟨fun si _ => (h.publicKeys.of_map _).filter _, ?_⟩
  refine (List.pairwise_map.mp h.nodup_selected).imp fun hne => ?_
  intro n hn hn'
  exact hne ((of_decide_eq_true (List.mem_filter.mp hn).2).symm.trans
    (of_decide_eq_true (List.mem_filter.mp hn').2))

theorem mem_selectedNodes {n : NodeRow} :
    n ∈ (t.selectedNodes iata hashSize chunk).map Prod.snd ↔ Listed t iata hashSize chunk n := by
  simp only [selectedNodes, selected, List.mem_map, List.mem_flatMap, List.mem_filter,
    decide_eq_true_eq]
  constructor
  · rintro ⟨-, ⟨si, ⟨hsi, hiata, hsize, hprefix⟩, node, ⟨hnode, hkey⟩, rfl⟩, rfl⟩
    exact ⟨hnode, si, hsi, hkey.symm, hiata, hsize, hprefix⟩
  · rintro ⟨hnode, si, hsi, hkey, hiata, hsize, hprefix⟩
    exact ⟨(si, n), ⟨si, ⟨hsi, hiata, hsize, hprefix⟩, n, ⟨hnode, hkey.symm⟩, rfl⟩, rfl⟩

/-- A row as `CandidatesByPrefix` reads it. -/
def shortID (si : NodeShortIDRow) : ShortIDRow :=
  { publicKey := si.publicKey, iata := si.iata, hashSize := si.hashSize, prefixHex := si.prefixHex }

theorem selected_shortIDs (hchunk : toUpper (trimSpace chunk) = chunk) :
    (t.candidateTables.shortIDs.filter fun si =>
        si.iata = toUpper (candidateCacheKey iata hashSize chunk).iata ∧
          si.hashSize = (candidateCacheKey iata hashSize chunk).hashSize ∧
          si.prefixHex = toUpper (candidateCacheKey iata hashSize chunk).keyPrefix) =
      (t.selected iata hashSize chunk).map shortID := by
  have hupper : toUpper chunk = chunk := by rw [← hchunk, toUpper_idem]
  show (t.nodeShortIDs.map shortID).filter _ = _
  rw [List.filter_map]
  refine congrArg (List.map shortID) (List.filter_congr fun si _ => ?_)
  rw [Bool.eq_iff_iff, Function.comp_apply, decide_eq_true_iff, decide_eq_true_iff]
  simp only [candidateCacheKey, shortID, toUpper_idem, hchunk, hupper, upperTrim, Nat.cast_inj]

/-- The store answers with the nodes of the selected rows, the latest seen first. -/
theorem candidatesByPrefix_eq (hchunk : toUpper (trimSpace chunk) = chunk) :
    t.candidateTables.candidatesByPrefix (candidateCacheKey iata hashSize chunk) =
      (((t.selectedNodes iata hashSize chunk).insertionSort fun a b =>
        b.2.lastSeen ≤ a.2.lastSeen).map Prod.snd).map (candidateOf iata) := by
  have hjoined : (((t.selected iata hashSize chunk).map shortID).flatMap fun si =>
      (t.candidateTables.nodes.filter fun n => n.publicKey = si.publicKey).map fun n => (si, n)) =
      (t.selectedNodes iata hashSize chunk).map fun row => (shortID row.1, t.scanNode row.2) := by
    rw [selectedNodes, List.flatMap_map, List.map_flatMap]
    refine List.flatMap_congr fun si _ => ?_
    show ((t.nodes.map t.scanNode).filter _).map _ = _
    rw [List.filter_map, List.map_map, List.map_map]
    rfl
  have hsort := List.map_insertionSort
    (fun a b : NodeShortIDRow × NodeRow => b.2.lastSeen ≤ a.2.lastSeen)
    (fun a b : ShortIDRow × Node => b.2.lastSeen ≤ a.2.lastSeen)
    (fun row : NodeShortIDRow × NodeRow => (shortID row.1, t.scanNode row.2))
    (t.selectedNodes iata hashSize chunk) fun _ _ _ _ => Iff.rfl
  unfold CandidateTables.candidatesByPrefix
  rw [selected_shortIDs hchunk]
  dsimp only
  rw [hjoined, ← hsort, List.map_map, List.map_map]
  refine List.map_congr_left fun row hrow => ?_
  obtain ⟨si, hsi, hmem⟩ := List.mem_flatMap.mp ((List.mem_insertionSort _).mp hrow)
  obtain ⟨n, -, rfl⟩ := List.mem_map.mp hmem
  have hiata : si.iata = upperTrim iata := (of_decide_eq_true (List.mem_filter.mp hsi).2).1
  simp only [Function.comp_apply, candidate, candidateOf, shortID, scanNode, hiata]

/-- The candidates of a chunk are the nodes that have its short identifier, each once. -/
theorem Wf.candidates (h : t.Wf) (iata : String) (hashSize : Nat)
    (hchunk : toUpper (trimSpace chunk) = chunk) :
    ∃ nodes : List NodeRow, nodes.Nodup ∧ (∀ n, n ∈ nodes ↔ Listed t iata hashSize chunk n) ∧
      t.candidateTables.candidatesByPrefix (candidateCacheKey iata hashSize chunk) =
        nodes.map (candidateOf iata) := by
  refine ⟨_, ?_, fun n => ?_, candidatesByPrefix_eq hchunk⟩
  · exact (((List.perm_insertionSort _ _).map Prod.snd).nodup_iff).mpr h.nodup_selectedNodes
  · rw [((List.perm_insertionSort _ _).map Prod.snd).mem_iff, mem_selectedNodes]

end Candidates

end NodeTables

end CartoLive.Store
