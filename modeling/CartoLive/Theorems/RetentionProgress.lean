import CartoLive.Store.Prune
import Mathlib.Tactic.IntervalCases

/-!
# Progress of retention pruning

The pruner succeeds at every step, comes to its end and leaves no old row behind
if and only if no propagation event that its own cutoff keeps has a path that
the data cutoff removes. The two cutoffs are chosen independently: with a longer
retention for propagation events such an event is there to stay, the `DELETE` of
its path violates the foreign key, and the pruner never gets past
`public_packet_paths`.
-/

namespace CartoLive.Theorems.RetentionProgress

open CartoLive.Lib CartoLive.Store.Prune

/-! ## What pruning promises -/

/-- The cutoff of a table without a foreign key. -/
def before (cutoffs : RetentionCutoffs) : PlainTable → Int
  | .publicEvents => cutoffs.publicEventBeforeMs
  | .propagationWeatherSnapshots => cutoffs.propagation
  | _ => cutoffs.dataBeforeMs

/-- No row older than its cutoff is left, but for observations still referred
to. -/
structure Pruned (cutoffs : RetentionCutoffs) (db : Tables) : Prop where
  plain : ∀ table, ∀ row ∈ db.plain table, before cutoffs table ≤ row.time
  propagationEvents : ∀ e ∈ db.propagationEvents, cutoffs.propagation ≤ e.atMs
  publicPacketPaths : ∀ p ∈ db.publicPacketPaths, cutoffs.dataBeforeMs ≤ p.heardAt
  liveEdgeEvents : ∀ e ∈ db.liveEdgeEvents, cutoffs.dataBeforeMs ≤ e.heardAt
  packetObservations : ∀ o ∈ db.packetObservations,
    cutoffs.dataBeforeMs ≤ o.heardAt ∨ db.Referenced o

/-- Rows at or after their cutoff are kept, and packets that have an
observation. -/
structure Keeps (cutoffs : RetentionCutoffs) (db db' : Tables) : Prop where
  plain : ∀ table, ∀ row ∈ db.plain table, before cutoffs table ≤ row.time → row ∈ db'.plain table
  propagationEvents : ∀ e ∈ db.propagationEvents, cutoffs.propagation ≤ e.atMs →
    e ∈ db'.propagationEvents
  publicPacketPaths : ∀ p ∈ db.publicPacketPaths, cutoffs.dataBeforeMs ≤ p.heardAt →
    p ∈ db'.publicPacketPaths
  liveEdgeEvents : ∀ e ∈ db.liveEdgeEvents, cutoffs.dataBeforeMs ≤ e.heardAt →
    e ∈ db'.liveEdgeEvents
  packetObservations : ∀ o ∈ db.packetObservations, cutoffs.dataBeforeMs ≤ o.heardAt →
    o ∈ db'.packetObservations
  packets : ∀ p ∈ db.packets, (∃ o ∈ db'.packetObservations, o.packetHash = p.packetHash) →
    p ∈ db'.packets

/-- What a fresh pruner promises about some tables. -/
structure Prunes (cutoffs : RetentionCutoffs) (limits : Nat → Limit pruneBatchSize) (db : Tables) :
    Prop where
  succeeds : ∀ n, ∃ p db', runSteps limits (newRetentionPruner cutoffs) db n = .ok (p, db')
  finishes : ∃ n p db', runSteps limits (newRetentionPruner cutoffs) db n = .ok (p, db') ∧
    p.targets.length ≤ p.next ∧ Pruned cutoffs db'
  keeps : ∀ n p db', runSteps limits (newRetentionPruner cutoffs) db n = .ok (p, db') →
    Keeps cutoffs db db' ∧ db'.ForeignKeys

variable {cutoffs : RetentionCutoffs} {limit : Limit pruneBatchSize} {db db' db'' : Tables}
  {target : Target} {n : Nat}

/-! ## Tables that only lose rows -/

/-- Every table has lost rows at most. -/
structure Within (db' db : Tables) : Prop where
  plain : ∀ table, (db'.plain table).Sublist (db.plain table)
  propagationEvents : db'.propagationEvents.Sublist db.propagationEvents
  publicPacketPaths : db'.publicPacketPaths.Sublist db.publicPacketPaths
  liveEdgeEvents : db'.liveEdgeEvents.Sublist db.liveEdgeEvents
  packetObservations : db'.packetObservations.Sublist db.packetObservations
  packets : db'.packets.Sublist db.packets

theorem Within.refl (db : Tables) : Within db db :=
  ⟨fun _ => .refl _, .refl _, .refl _, .refl _, .refl _, .refl _⟩

theorem Within.trans (h : Within db' db) (h' : Within db'' db') : Within db'' db :=
  ⟨fun table => (h'.plain table).trans (h.plain table),
    h'.propagationEvents.trans h.propagationEvents,
    h'.publicPacketPaths.trans h.publicPacketPaths,
    h'.liveEdgeEvents.trans h.liveEdgeEvents,
    h'.packetObservations.trans h.packetObservations,
    h'.packets.trans h.packets⟩

theorem Within.primaryKeys (h : Within db' db) (hkeys : db.PrimaryKeys) : db'.PrimaryKeys where
  plain table := ((h.plain table).map _).nodup (hkeys.plain table)
  propagationEvents := (h.propagationEvents.map _).nodup hkeys.propagationEvents
  publicPacketPaths := (h.publicPacketPaths.map _).nodup hkeys.publicPacketPaths
  liveEdgeEvents := (h.liveEdgeEvents.map _).nodup hkeys.liveEdgeEvents
  packetObservations := (h.packetObservations.map _).nodup hkeys.packetObservations
  packets := (h.packets.map _).nodup hkeys.packets

theorem Within.timed (h : Within db' db) (htimed : db.Timed) : db'.Timed where
  path_edge p hp e he :=
    htimed.path_edge p (h.publicPacketPaths.subset hp) e (h.liveEdgeEvents.subset he)
  event_path e he p hp :=
    htimed.event_path e (h.propagationEvents.subset he) p (h.publicPacketPaths.subset hp)

theorem Keeps.refl (cutoffs : RetentionCutoffs) (db : Tables) : Keeps cutoffs db db :=
  ⟨fun _ _ h _ => h, fun _ h _ => h, fun _ h _ => h, fun _ h _ => h, fun _ h _ => h,
    fun _ h _ => h⟩

theorem Keeps.trans (h : Keeps cutoffs db db') (h' : Keeps cutoffs db' db'')
    (hwithin : Within db'' db') : Keeps cutoffs db db'' where
  plain table row hrow htime := h'.plain table row (h.plain table row hrow htime) htime
  propagationEvents e he htime := h'.propagationEvents e (h.propagationEvents e he htime) htime
  publicPacketPaths p hp htime := h'.publicPacketPaths p (h.publicPacketPaths p hp htime) htime
  liveEdgeEvents e he htime := h'.liveEdgeEvents e (h.liveEdgeEvents e he htime) htime
  packetObservations o ho htime := h'.packetObservations o (h.packetObservations o ho htime) htime
  packets p hp hobserved := by
    obtain ⟨o, ho, heq⟩ := hobserved
    exact h'.packets p (h.packets p hp ⟨o, hwithin.packetObservations.subset ho, heq⟩) ⟨o, ho, heq⟩

/-- The rows of all the tables. -/
def size (db : Tables) : Nat :=
  (db.plain .publicEvents).length + (db.plain .publicRouteSummaryEdges).length +
    (db.plain .publicRouteSummaries).length + (db.plain .publicCoverageCells).length +
    (db.plain .observerStatus).length + (db.plain .solarSnapshots).length +
    (db.plain .propagationWeatherSnapshots).length + db.propagationEvents.length +
    db.publicPacketPaths.length + db.liveEdgeEvents.length + db.packetObservations.length +
    db.packets.length

/-! ## One delete -/

/-- The cutoff of a target is the one that pruning promises. -/
def Agrees (cutoffs : RetentionCutoffs) : Target → Prop
  | .plain table beforeMs => beforeMs = before cutoffs table
  | .propagationEvents beforeMs => beforeMs = cutoffs.propagation
  | .publicPacketPaths beforeMs | .liveEdgeEvents beforeMs | .packetObservations beforeMs =>
    beforeMs = cutoffs.dataBeforeMs
  | .packets => True

theorem agrees_of_mem (h : target ∈ targets cutoffs) : Agrees cutoffs target := by
  simp only [targets, List.mem_cons, List.not_mem_nil, or_false] at h
  rcases h with rfl | rfl | rfl | rfl | rfl | rfl | rfl | rfl | rfl | rfl | rfl | rfl <;> trivial

/-- No row is left that the target's `DELETE` matches. -/
def Clean (db : Tables) : Target → Prop
  | .plain table beforeMs => ∀ row ∈ db.plain table, beforeMs ≤ row.time
  | .propagationEvents beforeMs => ∀ e ∈ db.propagationEvents, beforeMs ≤ e.atMs
  | .publicPacketPaths beforeMs => ∀ p ∈ db.publicPacketPaths, beforeMs ≤ p.heardAt
  | .liveEdgeEvents beforeMs => ∀ e ∈ db.liveEdgeEvents, beforeMs ≤ e.heardAt
  | .packetObservations beforeMs => ∀ o ∈ db.packetObservations,
    beforeMs ≤ o.heardAt ∨ db.Referenced o
  | .packets => ∀ p ∈ db.packets, ∃ o ∈ db.packetObservations, o.packetHash = p.packetHash

/-- What a `DELETE` that succeeds does. -/
structure DeleteSpec (cutoffs : RetentionCutoffs) (target : Target) (db db' : Tables) (n : Nat) :
    Prop where
  within : Within db' db
  foreignKeys : db'.ForeignKeys
  keeps : Keeps cutoffs db db'
  size_eq : size db' + n = size db
  /-- A short one leaves nothing to delete. -/
  clean : n < pruneBatchSize → Clean db' target

theorem delete_plain (hkeys : db.PrimaryKeys) (hrefs : db.ForeignKeys) (table : PlainTable)
    (hdelete : (Target.plain table (before cutoffs table)).delete limit db = .ok (db', n)) :
    DeleteSpec cutoffs (.plain table (before cutoffs table)) db db' n := by
  simp only [Target.delete, Except.ok.injEq, Prod.mk.injEq] at hdelete
  obtain ⟨rfl, rfl⟩ := hdelete
  have hnodup := hkeys.plain table
  refine
    { within := { Within.refl db with plain := fun t => ?_ }
      foreignKeys := { hrefs with }
      keeps := { Keeps.refl cutoffs db with plain := fun t row hrow htime => ?_ }
      size_eq := ?_
      clean := fun hshort row hrow => ?_ }
  · by_cases ht : t = table
    · subst ht
      simpa using keptRows_sublist
    · simp [Function.update_of_ne ht]
  · by_cases ht : t = table
    · subst ht
      simpa using mem_keptRows_of_not_candidate hnodup hrow (by simpa using htime)
    · simpa [Function.update_of_ne ht] using hrow
  · have hlength := length_kept_add_deleted PlainRow.rowid
      (fun row => decide (row.time < before cutoffs table)) limit (db.plain table)
    cases table <;> simp [size, Function.update] <;> omega
  · have hkept : row ∈ keptRows PlainRow.rowid
        (fun row : PlainRow => decide (row.time < before cutoffs table)) limit (db.plain table) := by
      simpa using hrow
    simpa using not_candidate_of_short hnodup hshort hkept

theorem delete_propagationEvents (hkeys : db.PrimaryKeys) (hrefs : db.ForeignKeys)
    (hdelete : (Target.propagationEvents cutoffs.propagation).delete limit db = .ok (db', n)) :
    DeleteSpec cutoffs (.propagationEvents cutoffs.propagation) db db' n := by
  simp only [Target.delete, Except.ok.injEq, Prod.mk.injEq] at hdelete
  obtain ⟨rfl, rfl⟩ := hdelete
  have hnodup := hkeys.propagationEvents
  refine
    { within := { Within.refl db with propagationEvents := keptRows_sublist }
      foreignKeys := { hrefs with
        event_path := fun e he => hrefs.event_path e (keptRows_sublist.subset he) }
      keeps := { Keeps.refl cutoffs db with
        propagationEvents := fun e he htime =>
          mem_keptRows_of_not_candidate hnodup he (by simpa using htime) }
      size_eq := ?_
      clean := fun hshort e he => by simpa using not_candidate_of_short hnodup hshort he }
  have := length_kept_add_deleted PropagationEvent.id
    (fun e => decide (e.atMs < cutoffs.propagation)) limit db.propagationEvents
  simp only [size]
  omega

/-- A row that another one refers to and that is not deleted is kept. -/
theorem exists_kept {α : Type} {rowid : α → Int} {candidate : α → Bool} {rows : List α}
    {P : α → Prop} (hold : ∃ row ∈ rows, P row)
    (hnot : ¬ ∃ row ∈ deletedRows rowid candidate limit rows, P row) :
    ∃ row ∈ keptRows rowid candidate limit rows, P row := by
  obtain ⟨row, hrow, hP⟩ := hold
  refine ⟨row, mem_keptRows.mpr ⟨hrow, fun hpicked => ?_⟩, hP⟩
  exact hnot ⟨row, mem_deletedRows.mpr ⟨hrow, hpicked⟩, hP⟩

theorem delete_publicPacketPaths (hkeys : db.PrimaryKeys) (hrefs : db.ForeignKeys)
    (hdelete : (Target.publicPacketPaths cutoffs.dataBeforeMs).delete limit db = .ok (db', n)) :
    DeleteSpec cutoffs (.publicPacketPaths cutoffs.dataBeforeMs) db db' n := by
  simp only [Target.delete] at hdelete
  split at hdelete
  · cases hdelete
  rename_i hfree
  cases hdelete
  have hnodup := hkeys.publicPacketPaths
  refine
    { within := { Within.refl db with publicPacketPaths := keptRows_sublist }
      foreignKeys := { hrefs with
        event_path := fun e he => exists_kept (hrefs.event_path e he) fun h => hfree ⟨e, he, h⟩
        path_edge := fun p hp => hrefs.path_edge p (keptRows_sublist.subset hp)
        path_observation := fun p hp => hrefs.path_observation p (keptRows_sublist.subset hp) }
      keeps := { Keeps.refl cutoffs db with
        publicPacketPaths := fun p hp htime =>
          mem_keptRows_of_not_candidate hnodup hp (by simpa using htime) }
      size_eq := ?_
      clean := fun hshort p hp => by simpa using not_candidate_of_short hnodup hshort hp }
  have := length_kept_add_deleted PacketPath.edgeID
    (fun p => decide (p.heardAt < cutoffs.dataBeforeMs)) limit db.publicPacketPaths
  simp only [size]
  omega

theorem delete_liveEdgeEvents (hkeys : db.PrimaryKeys) (hrefs : db.ForeignKeys)
    (hdelete : (Target.liveEdgeEvents cutoffs.dataBeforeMs).delete limit db = .ok (db', n)) :
    DeleteSpec cutoffs (.liveEdgeEvents cutoffs.dataBeforeMs) db db' n := by
  simp only [Target.delete] at hdelete
  split at hdelete
  · cases hdelete
  rename_i hfree
  cases hdelete
  have hnodup := hkeys.liveEdgeEvents
  refine
    { within := { Within.refl db with liveEdgeEvents := keptRows_sublist }
      foreignKeys := { hrefs with
        path_edge := fun p hp => exists_kept (hrefs.path_edge p hp) fun h => hfree ⟨p, hp, h⟩
        edge_observation := fun e he => hrefs.edge_observation e (keptRows_sublist.subset he) }
      keeps := { Keeps.refl cutoffs db with
        liveEdgeEvents := fun e he htime =>
          mem_keptRows_of_not_candidate hnodup he (by simpa using htime) }
      size_eq := ?_
      clean := fun hshort e he => by simpa using not_candidate_of_short hnodup hshort he }
  have := length_kept_add_deleted LiveEdge.id
    (fun e => decide (e.heardAt < cutoffs.dataBeforeMs)) limit db.liveEdgeEvents
  simp only [size]
  omega

theorem delete_packetObservations (hkeys : db.PrimaryKeys) (hrefs : db.ForeignKeys)
    (hdelete : (Target.packetObservations cutoffs.dataBeforeMs).delete limit db = .ok (db', n)) :
    DeleteSpec cutoffs (.packetObservations cutoffs.dataBeforeMs) db db' n := by
  simp only [Target.delete] at hdelete
  split at hdelete
  · cases hdelete
  rename_i hfree
  cases hdelete
  have hnodup := hkeys.packetObservations
  refine
    { within := { Within.refl db with packetObservations := keptRows_sublist }
      foreignKeys := { hrefs with
        path_observation := fun p hp =>
          exists_kept (hrefs.path_observation p hp) fun h => hfree (.inr ⟨p, hp, h⟩)
        edge_observation := fun e he =>
          exists_kept (hrefs.edge_observation e he) fun h => hfree (.inl ⟨e, he, h⟩)
        observation_packet := fun o ho => hrefs.observation_packet o (keptRows_sublist.subset ho) }
      keeps := { Keeps.refl cutoffs db with
        packetObservations := fun o ho htime =>
          mem_keptRows_of_not_candidate hnodup ho
            (decide_eq_false fun h => Int.not_lt.mpr htime h.1)
        packets := fun p hp _ => hp }
      size_eq := ?_
      clean := fun hshort o ho => ?_ }
  · have := length_kept_add_deleted Observation.id
      (observationCandidate db cutoffs.dataBeforeMs) limit db.packetObservations
    simp only [size]
    omega
  · have hnot := not_candidate_of_short hnodup hshort ho
    simp only [observationCandidate, decide_eq_false_iff_not, not_and, not_not] at hnot
    by_cases htime : o.heardAt < cutoffs.dataBeforeMs
    · exact .inr (hnot htime)
    · exact .inl (Int.not_lt.mp htime)

theorem delete_packets (hkeys : db.PrimaryKeys) (hrefs : db.ForeignKeys)
    (hdelete : Target.packets.delete limit db = .ok (db', n)) :
    DeleteSpec cutoffs .packets db db' n := by
  simp only [Target.delete] at hdelete
  split at hdelete
  · cases hdelete
  rename_i hfree
  cases hdelete
  have hnodup := hkeys.packets
  refine
    { within := { Within.refl db with packets := keptRows_sublist }
      foreignKeys := { hrefs with
        observation_packet := fun o ho =>
          exists_kept (hrefs.observation_packet o ho) fun h => hfree ⟨o, ho, h⟩ }
      keeps := { Keeps.refl cutoffs db with
        packets := fun p hp hobserved =>
          mem_keptRows_of_not_candidate hnodup hp (by simpa [packetCandidate] using hobserved) }
      size_eq := ?_
      clean := fun hshort p hp => ?_ }
  · have := length_kept_add_deleted Packet.rowid (packetCandidate db) limit db.packets
    simp only [size]
    omega
  · simpa [packetCandidate] using not_candidate_of_short hnodup hshort hp

/-- A `DELETE` that succeeds, whatever the target. -/
theorem delete_spec (hkeys : db.PrimaryKeys) (hrefs : db.ForeignKeys) (hagrees : Agrees cutoffs target)
    (hdelete : target.delete limit db = .ok (db', n)) : DeleteSpec cutoffs target db db' n := by
  cases target with
  | plain table beforeMs => cases hagrees; exact delete_plain hkeys hrefs table hdelete
  | propagationEvents beforeMs => cases hagrees; exact delete_propagationEvents hkeys hrefs hdelete
  | publicPacketPaths beforeMs => cases hagrees; exact delete_publicPacketPaths hkeys hrefs hdelete
  | liveEdgeEvents beforeMs => cases hagrees; exact delete_liveEdgeEvents hkeys hrefs hdelete
  | packetObservations beforeMs => cases hagrees; exact delete_packetObservations hkeys hrefs hdelete
  | packets => exact delete_packets hkeys hrefs hdelete

/-- What a target needs of the rows that refer to its table. -/
def Ready (db : Tables) : Target → Prop
  | .publicPacketPaths beforeMs => ∀ e ∈ db.propagationEvents, ∀ p ∈ db.publicPacketPaths,
    p.edgeID = e.edgeID → beforeMs ≤ p.heardAt
  | .liveEdgeEvents beforeMs => ∀ p ∈ db.publicPacketPaths, ∀ e ∈ db.liveEdgeEvents,
    e.id = p.edgeID → beforeMs ≤ e.heardAt
  | _ => True

/-- The `DELETE` violates no foreign key when no row that it matches is referred
to; the last two targets match no such row. -/
theorem delete_ok (limit : Limit pruneBatchSize) (hkeys : db.PrimaryKeys) (hready : Ready db target) :
    ∃ db' n, target.delete limit db = .ok (db', n) := by
  cases target with
  | plain table beforeMs => exact ⟨_, _, rfl⟩
  | propagationEvents beforeMs => exact ⟨_, _, rfl⟩
  | publicPacketPaths beforeMs =>
    refine ⟨_, _, if_neg ?_⟩
    rintro ⟨e, he, p, hp, hedge⟩
    have hold := candidate_of_mem_deletedRows hkeys.publicPacketPaths hp
    have := hready e he p (mem_deletedRows.mp hp).1 hedge
    exact Int.not_lt.mpr this (of_decide_eq_true hold)
  | liveEdgeEvents beforeMs =>
    refine ⟨_, _, if_neg ?_⟩
    rintro ⟨p, hp, e, he, hedge⟩
    have hold := candidate_of_mem_deletedRows hkeys.liveEdgeEvents he
    have := hready p hp e (mem_deletedRows.mp he).1 hedge
    exact Int.not_lt.mpr this (of_decide_eq_true hold)
  | packetObservations beforeMs =>
    refine ⟨_, _, if_neg ?_⟩
    rintro (⟨e, he, o, ho, hid⟩ | ⟨p, hp, o, ho, hid⟩)
    · have hfree := candidate_of_mem_deletedRows hkeys.packetObservations ho
      exact (of_decide_eq_true hfree).2 (.inl ⟨e, he, hid.symm⟩)
    · have hfree := candidate_of_mem_deletedRows hkeys.packetObservations ho
      exact (of_decide_eq_true hfree).2 (.inr ⟨p, hp, hid.symm⟩)
  | packets =>
    refine ⟨_, _, if_neg ?_⟩
    rintro ⟨o, ho, p, hp, hhash⟩
    have horphan := candidate_of_mem_deletedRows hkeys.packets hp
    exact of_decide_eq_true horphan o ho hhash.symm

/-! ## The run -/

/-- What holds between the steps of a pruner that started on `start`. -/
structure RunInv (cutoffs : RetentionCutoffs) (start : Tables) (p : RetentionPruner) (db : Tables) :
    Prop where
  targets : p.targets = targets cutoffs
  within : Within db start
  foreignKeys : db.ForeignKeys
  keeps : Keeps cutoffs start db
  clean : ∀ k target, k < p.next → (Store.Prune.targets cutoffs)[k]? = some target →
    Clean db target

variable {start : Tables} {p p' : RetentionPruner} {res : RetentionPruneStep}

/-- The targets behind `packet_observations` touch no table that refers to it. -/
theorem target_after_observations {k m : Nat} {beforeMs : Int}
    (hk : (targets cutoffs)[k]? = some (.packetObservations beforeMs)) (hkm : k < m)
    (hm : (targets cutoffs)[m]? = some target) :
    (∃ table beforeMs, target = .plain table beforeMs) ∨ target = .packets := by
  have hlt : m < 12 := (List.getElem?_eq_some_iff.mp hm).1
  obtain rfl : k = 7 := by
    have hlt : k < 12 := by omega
    interval_cases k <;> first | rfl | simp [targets] at hk
  interval_cases m <;> simp only [targets] at hm <;> cases hm
  · exact .inl ⟨_, _, rfl⟩
  · exact .inl ⟨_, _, rfl⟩
  · exact .inl ⟨_, _, rfl⟩
  · exact .inr rfl

/-- What a target has cleaned stays clean while the targets behind it delete. -/
theorem clean_later {k m : Nat} {earlier : Target} (hk : (targets cutoffs)[k]? = some earlier)
    (hkm : k < m) (hm : (targets cutoffs)[m]? = some target)
    (hdelete : target.delete limit db = .ok (db', n)) (hwithin : Within db' db)
    (hclean : Clean db earlier) : Clean db' earlier := by
  cases earlier with
  | plain table beforeMs => exact fun row hrow => hclean row ((hwithin.plain table).subset hrow)
  | propagationEvents beforeMs =>
    exact fun e he => hclean e (hwithin.propagationEvents.subset he)
  | publicPacketPaths beforeMs =>
    exact fun p hp => hclean p (hwithin.publicPacketPaths.subset hp)
  | liveEdgeEvents beforeMs => exact fun e he => hclean e (hwithin.liveEdgeEvents.subset he)
  | packetObservations beforeMs =>
    intro o ho
    have hold := hclean o (hwithin.packetObservations.subset ho)
    rcases target_after_observations hk hkm hm with ⟨table, cutoff, rfl⟩ | rfl
    · cases hdelete
      exact hold
    · simp only [Target.delete] at hdelete
      split at hdelete <;> cases hdelete
      exact hold
  | packets =>
    -- nothing comes behind `packets`
    have hlt : m < 12 := (List.getElem?_eq_some_iff.mp hm).1
    have hlt' : k < 11 := by omega
    interval_cases k <;> simp [targets] at hk

theorem runInv_start (hrefs : start.ForeignKeys) :
    RunInv cutoffs start (newRetentionPruner cutoffs) start :=
  ⟨rfl, .refl start, hrefs, .refl cutoffs start, fun _ _ hlt _ => absurd hlt (Nat.not_lt_zero _)⟩

/-- The step lemma, for a step that succeeds. -/
theorem RunInv.step (h : RunInv cutoffs start p db) (hkeys : start.PrimaryKeys)
    (hstep : p.step limit db = .ok (p', db', res)) : RunInv cutoffs start p' db' := by
  unfold RetentionPruner.step at hstep
  split at hstep
  · cases hstep
    exact h
  · rename_i target htarget
    rw [h.targets] at htarget
    split at hstep
    · cases hstep
    · rename_i db' affected hdelete
      cases hstep
      have hspec := delete_spec (h.within.primaryKeys hkeys) h.foreignKeys
        (agrees_of_mem (List.mem_of_getElem? htarget)) hdelete
      refine ⟨h.targets, h.within.trans hspec.within, hspec.foreignKeys,
        h.keeps.trans hspec.keeps hspec.within, fun k earlier hlt hk => ?_⟩
      dsimp only at hlt
      by_cases hold : k < p.next
      · exact clean_later hk hold htarget hdelete hspec.within (h.clean k earlier hold hk)
      · -- the target has just been finished
        split at hlt
        · rename_i hshort
          obtain rfl : k = p.next := by omega
          obtain rfl : target = earlier := Option.some.inj (htarget.symm.trans hk)
          exact hspec.clean hshort
        · omega

/-- A step that succeeds before the end deletes rows or ends its target. -/
theorem RunInv.measure_step (h : RunInv cutoffs start p db) (hkeys : start.PrimaryKeys)
    (hnext : p.next < 12) (hstep : p.step limit db = .ok (p', db', res)) :
    12 - p'.next + size db' < 12 - p.next + size db := by
  unfold RetentionPruner.step at hstep
  split at hstep
  · rename_i hnone
    rw [h.targets, List.getElem?_eq_none_iff] at hnone
    exact absurd hnext (Nat.not_lt.mpr hnone)
  · rename_i target htarget
    rw [h.targets] at htarget
    split at hstep
    · cases hstep
    · rename_i db' affected hdelete
      cases hstep
      have hspec := delete_spec (h.within.primaryKeys hkeys) h.foreignKeys
        (agrees_of_mem (List.mem_of_getElem? htarget)) hdelete
      have hsize := hspec.size_eq
      dsimp only
      split
      · omega
      · rename_i hfull
        unfold pruneBatchSize at hfull
        omega

/-- The condition of the main result: a propagation event that its own cutoff
keeps is kept by the data cutoff too. -/
def EventsCovered (cutoffs : RetentionCutoffs) (db : Tables) : Prop :=
  ∀ e ∈ db.propagationEvents, cutoffs.propagation ≤ e.atMs → cutoffs.dataBeforeMs ≤ e.atMs

/-- Under the condition no step fails: what refers to a row that is old has been
deleted before. -/
theorem RunInv.step_ok (h : RunInv cutoffs start p db) (limit : Limit pruneBatchSize) (hkeys : start.PrimaryKeys)
    (htimed : start.Timed) (hcovered : EventsCovered cutoffs start) :
    ∃ p' db' res, p.step limit db = .ok (p', db', res) := by
  have htimed' := h.within.timed htimed
  unfold RetentionPruner.step
  rw [h.targets]
  cases htarget : (Store.Prune.targets cutoffs)[p.next]? with
  | none => exact ⟨_, _, _, rfl⟩
  | some target =>
    have hready : Ready db target := by
      cases target with
      | publicPacketPaths beforeMs =>
        obtain rfl : beforeMs = cutoffs.dataBeforeMs := agrees_of_mem (List.mem_of_getElem? htarget)
        have hnext : 1 < p.next := by
          by_contra hle
          have : p.next = 0 ∨ p.next = 1 := by omega
          rcases this with h0 | h1
          · rw [h0] at htarget; cases htarget
          · rw [h1] at htarget; cases htarget
        intro e he path hpath hedge
        have hkept := h.clean 1 (.propagationEvents cutoffs.propagation) hnext rfl e he
        rw [← htimed'.event_path e he path hpath hedge]
        exact hcovered e (h.within.propagationEvents.subset he) hkept
      | liveEdgeEvents beforeMs =>
        obtain rfl : beforeMs = cutoffs.dataBeforeMs := agrees_of_mem (List.mem_of_getElem? htarget)
        have hnext : 2 < p.next := by
          by_contra hle
          have : p.next = 0 ∨ p.next = 1 ∨ p.next = 2 := by omega
          rcases this with h0 | h1 | h2
          · rw [h0] at htarget; cases htarget
          · rw [h1] at htarget; cases htarget
          · rw [h2] at htarget; cases htarget
        intro path hpath e he hedge
        rw [← htimed'.path_edge path hpath e he hedge]
        exact h.clean 2 (.publicPacketPaths cutoffs.dataBeforeMs) hnext rfl path hpath
      | plain _ _ | propagationEvents _ | packetObservations _ | packets => trivial
    obtain ⟨db', n, hdelete⟩ := delete_ok limit (h.within.primaryKeys hkeys) hready
    simp only [hdelete]
    exact ⟨_, _, _, rfl⟩

variable {limits : Nat → Limit pruneBatchSize}

/-- The run lemma. -/
theorem runInv (hkeys : start.PrimaryKeys) (hrefs : start.ForeignKeys) {n : Nat}
    (hrun : runSteps limits (newRetentionPruner cutoffs) start n = .ok (p, db)) :
    RunInv cutoffs start p db := by
  induction n generalizing p db with
  | zero =>
    cases hrun
    exact runInv_start hrefs
  | succ n ih =>
    simp only [runSteps] at hrun
    split at hrun
    · cases hrun
    · rename_i q mid hmid
      cases hstep : q.step (limits n) mid with
      | error err => rw [hstep] at hrun; cases hrun
      | ok result =>
        rw [hstep] at hrun
        cases hrun
        exact (ih hmid).step hkeys hstep

/-- The tables at the end of a run. -/
theorem RunInv.pruned (h : RunInv cutoffs start p db) (hdone : 12 ≤ p.next) :
    Pruned cutoffs db where
  plain table := by
    cases table with
    | publicEvents => exact h.clean 0 (.plain .publicEvents _) (by omega) rfl
    | publicRouteSummaryEdges => exact h.clean 3 (.plain .publicRouteSummaryEdges _) (by omega) rfl
    | publicRouteSummaries => exact h.clean 4 (.plain .publicRouteSummaries _) (by omega) rfl
    | publicCoverageCells => exact h.clean 5 (.plain .publicCoverageCells _) (by omega) rfl
    | observerStatus => exact h.clean 8 (.plain .observerStatus _) (by omega) rfl
    | solarSnapshots => exact h.clean 9 (.plain .solarSnapshots _) (by omega) rfl
    | propagationWeatherSnapshots =>
      exact h.clean 10 (.plain .propagationWeatherSnapshots _) (by omega) rfl
  propagationEvents := h.clean 1 (.propagationEvents _) (by omega) rfl
  publicPacketPaths := h.clean 2 (.publicPacketPaths _) (by omega) rfl
  liveEdgeEvents := h.clean 6 (.liveEdgeEvents _) (by omega) rfl
  packetObservations := h.clean 7 (.packetObservations _) (by omega) rfl

variable (limits) in
/-- Under the condition every step succeeds. -/
theorem runSteps_ok (hkeys : start.PrimaryKeys) (hrefs : start.ForeignKeys) (htimed : start.Timed)
    (hcovered : EventsCovered cutoffs start) (n : Nat) :
    ∃ p db, runSteps limits (newRetentionPruner cutoffs) start n = .ok (p, db) := by
  induction n with
  | zero => exact ⟨_, _, rfl⟩
  | succ n ih =>
    obtain ⟨p, db, hrun⟩ := ih
    obtain ⟨p', db', res, hstep⟩ :=
      (runInv hkeys hrefs hrun).step_ok (limits n) hkeys htimed hcovered
    exact ⟨p', db', by simp only [runSteps, hrun, hstep]; rfl⟩

variable (limits) in
/-- Under the condition the steps come to an end: each of them deletes rows or
ends a target. -/
theorem runSteps_finishes (hkeys : start.PrimaryKeys) (hrefs : start.ForeignKeys)
    (htimed : start.Timed) (hcovered : EventsCovered cutoffs start) :
    ∃ n p db, runSteps limits (newRetentionPruner cutoffs) start n = .ok (p, db) ∧ 12 ≤ p.next := by
  have key : ∀ m n p db, runSteps limits (newRetentionPruner cutoffs) start n = .ok (p, db) →
      12 - p.next + size db ≤ m →
      ∃ n p db, runSteps limits (newRetentionPruner cutoffs) start n = .ok (p, db) ∧
        12 ≤ p.next := by
    intro m
    induction m with
    | zero => exact fun n p db hrun hmeasure => ⟨n, p, db, hrun, by omega⟩
    | succ m ih =>
      intro n p db hrun hmeasure
      by_cases hdone : 12 ≤ p.next
      · exact ⟨n, p, db, hrun, hdone⟩
      · have hinv := runInv hkeys hrefs hrun
        obtain ⟨p', db', res, hstep⟩ := hinv.step_ok (limits n) hkeys htimed hcovered
        have hless := hinv.measure_step hkeys (by omega) hstep
        exact ih (n + 1) p' db' (by simp only [runSteps, hrun, hstep]; rfl) (by omega)
  exact key _ 0 _ _ rfl (le_refl _)

/-- What pruning promises fails unless every kept propagation event is covered:
the event is never deleted, so that its path never is. -/
theorem Prunes.eventsCovered (h : Prunes cutoffs limits db) (hkeys : db.PrimaryKeys)
    (hrefs : db.ForeignKeys) (htimed : db.Timed) : EventsCovered cutoffs db := by
  intro e he htime
  obtain ⟨n, p, db', hrun, -, hpruned⟩ := h.finishes
  obtain ⟨hkeeps, hrefs'⟩ := h.keeps n p db' hrun
  obtain ⟨path, hpath, hedge⟩ := hrefs'.event_path e (hkeeps.propagationEvents e he htime)
  have hwithin := (runInv hkeys hrefs hrun).within
  rw [htimed.event_path e he path (hwithin.publicPacketPaths.subset hpath) hedge]
  exact hpruned.publicPacketPaths path hpath

/-! ## The main result -/

/-- **Pruning makes progress exactly when the kept propagation events are
covered.** For tables that satisfy the keys of the schema, whatever rows the
limits return: every step succeeds, the steps come to an end that leaves no old
row, no step deletes a recent one, and no reference breaks, if and only if every
propagation event at or after its cutoff is at or after the data cutoff. -/
theorem prunes_iff (cutoffs : RetentionCutoffs) (limits : Nat → Limit pruneBatchSize) {db : Tables}
    (hkeys : db.PrimaryKeys) (hrefs : db.ForeignKeys) (htimed : db.Timed) :
    Prunes cutoffs limits db ↔
      ∀ e ∈ db.propagationEvents, cutoffs.propagation ≤ e.atMs →
        cutoffs.dataBeforeMs ≤ e.atMs := by
  refine ⟨fun h => h.eventsCovered hkeys hrefs htimed, fun hcovered => ?_⟩
  refine ⟨runSteps_ok limits hkeys hrefs htimed hcovered, ?_, fun n p db' hrun => ?_⟩
  · obtain ⟨n, p, db', hrun, hdone⟩ := runSteps_finishes limits hkeys hrefs htimed hcovered
    have hinv := runInv hkeys hrefs hrun
    refine ⟨n, p, db', hrun, ?_, hinv.pruned hdone⟩
    rw [hinv.targets]
    exact hdone
  · have hinv := runInv hkeys hrefs hrun
    exact ⟨hinv.keeps, hinv.foreignKeys⟩

/-! ## Tables of one packet -/

/-- One packet heard at a time, with its edge, path and propagation event. -/
def heardOnce (time : Int) : Tables :=
  { plain := fun _ => [], propagationEvents := [⟨1, 1, time⟩], publicPacketPaths := [⟨1, 1, time⟩]
    liveEdgeEvents := [⟨1, 1, time⟩], packetObservations := [⟨1, "hash", time⟩]
    packets := [⟨1, "hash"⟩] }

theorem primaryKeys_heardOnce (time : Int) : (heardOnce time).PrimaryKeys := by
  constructor <;> simp [heardOnce]

theorem foreignKeys_heardOnce (time : Int) : (heardOnce time).ForeignKeys := by
  constructor <;> simp [heardOnce]

theorem timed_heardOnce (time : Int) : (heardOnce time).Timed := by
  constructor <;> simp [heardOnce]

/-- A week of data and a month of propagation events, in days. -/
def monthOfPropagation : RetentionCutoffs :=
  { dataBeforeMs := 93, publicEventBeforeMs := 99, propagationBeforeMs := 70 }

/-- Two months on everything goes. -/
theorem heardLongAgo_pruned :
    Prunes monthOfPropagation (fun _ => .first _) (heardOnce 60) := by
  refine (prunes_iff monthOfPropagation (fun _ => .first _) (primaryKeys_heardOnce 60)
    (foreignKeys_heardOnce 60) (timed_heardOnce 60)).mpr ?_
  intro e he htime
  obtain rfl := List.mem_singleton.mp he
  exact absurd htime (by decide)

/-- A packet of two weeks ago has a propagation event that is kept and a path that
is old: pruning never gets past the paths. -/
theorem keptEvent_blocks_pruning :
    ¬ ∀ (cutoffs : RetentionCutoffs) (limits : Nat → Limit pruneBatchSize) (db : Tables),
      db.PrimaryKeys → db.ForeignKeys → db.Timed → Prunes cutoffs limits db := by
  intro h
  have hkeys := primaryKeys_heardOnce 86
  have hrefs := foreignKeys_heardOnce 86
  have htimed := timed_heardOnce 86
  have hcovered := (h monthOfPropagation (fun _ => .first _) _ hkeys hrefs htimed).eventsCovered
    hkeys hrefs htimed
  exact absurd (hcovered _ (List.mem_singleton_self _) (by decide)) (by decide)

end CartoLive.Theorems.RetentionProgress
