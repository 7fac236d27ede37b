import CartoLive.App.DerivedIngest
import CartoLive.App.WorkerInvariant

/-!
# Committed events reach the live clients

The worker publishes the events of an edge or an activity whenever its retry loop
ends, but a node update only when the last attempt has created it. An attempt
that commits and reports an error makes the retry find its own row, and the node
update is neither broadcast nor applied. Every other committed event is, once
and in the order of the sequence.
-/

namespace CartoLive.Theorems.LiveBroadcast

open CartoLive.App CartoLive.Go CartoLive.Lib CartoLive.Live CartoLive.Store

/-! ## The property -/

def broadcastSeqs (s : Worker) : List Int :=
  (s.calls.filter fun call => call.2 = .broadcast).map fun call => call.1.seq

def appliedSeqs (s : Worker) : List Int :=
  (s.calls.filter fun call => call.2 = .apply).map fun call => call.1.seq

/-- The rows that a run has added to a table. -/
def committedRows (before : PublicEventTable) (s : Worker) : List PublicEvent :=
  s.db.publicEvents.rows.drop before.rows.length

/-- Every committed event is broadcast once and applied once to a ready cache,
and the broadcasts come in increasing order. -/
structure EachOnce (before : PublicEventTable) (s : Worker) : Prop where
  broadcast : ∀ row ∈ committedRows before s, (broadcastSeqs s).count row.seq = 1
  applied : ∀ row ∈ committedRows before s, (appliedSeqs s).count row.seq = 1
  increasing : (broadcastSeqs s).Pairwise (· < ·)
  ready : s.cache.ready = true

/-- A worker that has made no call yet. -/
def startWorker (db : Database) (cache : PublicStateCache) (hubSeq : Int) : Worker :=
  { db, cache, hubSeq, calls := [] }

/-! ## Deliveries -/

/-- From `s` to `s'`, `new` are committed and `published` are published. -/
structure Delivers (s s' : Worker) (new published : List PublicEvent) : Prop where
  rows : s'.db.publicEvents.rows = s.db.publicEvents.rows ++ new
  calls : s'.calls = s.calls ++ published.flatMap publishOps
  filter : s'.cache.filter = s.cache.filter
  ready : s'.cache.ready = s.cache.ready
  seqs : (published.map PublicEvent.seq).Sublist (new.map PublicEvent.seq)

theorem Delivers.refl (s : Worker) : Delivers s s [] [] :=
  ⟨(List.append_nil _).symm, (List.append_nil _).symm, rfl, rfl, List.nil_sublist _⟩

theorem Delivers.trans {a b c : Worker} {new new' published published' : List PublicEvent}
    (hab : Delivers a b new published) (hbc : Delivers b c new' published') :
    Delivers a c (new ++ new') (published ++ published') where
  rows := by rw [hbc.rows, hab.rows, List.append_assoc]
  calls := by rw [hbc.calls, hab.calls, List.flatMap_append, List.append_assoc]
  filter := hbc.filter.trans hab.filter
  ready := hbc.ready.trans hab.ready
  seqs := by
    rw [List.map_append, List.map_append]
    exact hab.seqs.append hbc.seqs

theorem Delivers.length_le {s s' : Worker} {new published : List PublicEvent}
    (h : Delivers s s' new published) : published.length ≤ new.length := by
  simpa using h.seqs.length_le

/-! ## Publishing -/

theorem ready_apply (c : PublicStateCache) (now : Int) (data : PublicData) :
    (c.apply now data).ready = c.ready ∧ (c.apply now data).filter = c.filter := by
  cases hready : c.ready with
  | false =>
    rw [PublicStateCache.apply_not_ready hready]
    exact ⟨hready, rfl⟩
  | true =>
    have happlied := PublicStateCache.apply_applied hready now data
    exact ⟨happlied.ready, happlied.filter⟩

/-- What calls leave behind. -/
theorem foldl_perform (s : Worker) (now : Int) (calls : List (PublicEvent × Op)) :
    (calls.foldl (Worker.perform now) s).db = s.db ∧
      (calls.foldl (Worker.perform now) s).calls = s.calls ++ calls ∧
      (calls.foldl (Worker.perform now) s).cache.filter = s.cache.filter ∧
      (calls.foldl (Worker.perform now) s).cache.ready = s.cache.ready := by
  induction calls generalizing s with
  | nil => exact ⟨rfl, (List.append_nil _).symm, rfl, rfl⟩
  | cons call calls ih =>
    obtain ⟨hdb, hcalls, hfilter, hready⟩ := ih (s.perform now call)
    have hstep : (s.perform now call).db = s.db ∧ (s.perform now call).calls = s.calls ++ [call] ∧
        (s.perform now call).cache.filter = s.cache.filter ∧
        (s.perform now call).cache.ready = s.cache.ready := by
      unfold Worker.perform
      cases call.2 with
      | apply =>
        obtain ⟨hready, hfilter⟩ := ready_apply s.cache now
          (publicEventDataWithSeq call.1.data call.1.seq)
        exact ⟨rfl, rfl, hfilter, hready⟩
      | broadcast => exact ⟨rfl, rfl, rfl, rfl⟩
    obtain ⟨hdb', hcalls', hfilter', hready'⟩ := hstep
    refine ⟨hdb.trans hdb', ?_, hfilter.trans hfilter', hready.trans hready'⟩
    rw [List.foldl_cons, hcalls, hcalls', List.append_assoc]
    rfl

/-- Rows that are committed and events that are published next. -/
theorem delivers_publish {s s' : Worker} {new published : List PublicEvent} (now : Int)
    (hrows : s'.db.publicEvents.rows = s.db.publicEvents.rows ++ new)
    (hcalls : s'.calls = s.calls) (hfilter : s'.cache.filter = s.cache.filter)
    (hready : s'.cache.ready = s.cache.ready)
    (hseqs : (published.map PublicEvent.seq).Sublist (new.map PublicEvent.seq)) :
    Delivers s (s'.publish now published) new published := by
  obtain ⟨hdb', hcalls', hfilter', hready'⟩ := foldl_perform s' now (published.flatMap publishOps)
  refine ⟨?_, ?_, hfilter'.trans hfilter, hready'.trans hready, hseqs⟩
  · rw [Worker.publish, hdb', hrows]
  · rw [Worker.publish, hcalls', hcalls]

theorem seqs_publishOps (op : Op) (published : List PublicEvent) :
    ((published.flatMap publishOps).filter fun call => call.2 = op).map (fun call => call.1.seq) =
      published.map PublicEvent.seq := by
  induction published with
  | nil => rfl
  | cons event published ih =>
    have hone : ((publishOps event).filter fun call => call.2 = op).map (fun call => call.1.seq) =
        [event.seq] := by
      unfold publishOps
      cases op <;> cases event.data.kind <;> rfl
    rw [List.flatMap_cons, List.filter_append, List.map_append, hone, ih]
    rfl

/-! ## Node updates -/

/-- An attempt on an event whose key is stored. -/
theorem exists_insert_found {t : PublicEventTable} {event : PublicEvent} {seq : Int}
    (h : t.seqOf event.dedupeKey = some seq) (now : Int) :
    ∃ stored : PublicEvent, stored.dedupeKey = event.dedupeKey ∧
      t.insertPublicEventOnceTx now event = (t.burn, stored, false) :=
  ⟨{ PublicEventTable.normalizeEvent now event with seq }, rfl,
    PublicEventTable.insertPublicEventOnceTx_found h now⟩

/-- An attempt on a new event. -/
theorem exists_insert_new {t : PublicEventTable} {event : PublicEvent}
    (h : t.seqOf event.dedupeKey = none) (now : Int) :
    ∃ row stored : PublicEvent, row.dedupeKey = event.dedupeKey ∧
      stored.dedupeKey = event.dedupeKey ∧ stored.seq = t.sequence + 1 ∧
      t.insertPublicEventOnceTx now event = (t.append row, stored, true) :=
  ⟨PublicEventTable.normalizeEvent now event,
    { PublicEventTable.normalizeEvent now event with seq := t.sequence + 1 }, rfl, rfl, rfl,
    PublicEventTable.insertPublicEventOnceTx_new h now⟩

/-- Attempts on an event whose key is stored add no row. -/
theorem insertFails_found {t : PublicEventTable} {event : PublicEvent} {seq : Int}
    (h : t.seqOf event.dedupeKey = some seq) (failures : List (Int × Outcome)) :
    (Worker.insertFails t event failures).1.rows = t.rows ∧
      (Worker.insertFails t event failures).2.dedupeKey = event.dedupeKey := by
  induction failures generalizing t event with
  | nil => exact ⟨rfl, rfl⟩
  | cons f rest ih =>
    obtain ⟨now, outcome⟩ := f
    obtain ⟨stored, hstored, hinsert⟩ := exists_insert_found h now
    rw [← hstored] at h ⊢
    unfold Worker.insertFails
    rw [hinsert]
    cases outcome with
    | refused =>
      rw [hstored] at h ⊢
      exact ih h
    | rolledBack => exact ih h
    | ambiguous => exact ih (t := t.burn) h
    | committed => exact ih (t := t.burn) h

/-- Attempts on a new event: none commits, or the first one that does adds the
only row. -/
theorem insertFails_new {t : PublicEventTable} {event : PublicEvent}
    (h : t.seqOf event.dedupeKey = none) (hkey : event.dedupeKey ≠ "")
    (failures : List (Int × Outcome)) :
    (Worker.insertFails t event failures).2.dedupeKey = event.dedupeKey ∧
      ((∀ f ∈ failures, f.2.commits = false) →
        (Worker.insertFails t event failures).1 = t) ∧
      (¬ (∀ f ∈ failures, f.2.commits = false) →
        ∃ row, (Worker.insertFails t event failures).1.rows = t.rows ++ [row] ∧
          row.dedupeKey = event.dedupeKey) := by
  induction failures generalizing event with
  | nil => exact ⟨rfl, fun _ => rfl, fun hnone => absurd (by simp) hnone⟩
  | cons f rest ih =>
    obtain ⟨now, outcome⟩ := f
    obtain ⟨row, stored, hrow, hstored, -, hinsert⟩ := exists_insert_new h now
    -- what is left to do when this attempt does not commit
    have hlater : ∀ e : PublicEvent, e.dedupeKey = event.dedupeKey → outcome.commits = false →
        (Worker.insertFails t e rest).2.dedupeKey = event.dedupeKey ∧
          ((∀ f ∈ (now, outcome) :: rest, f.2.commits = false) →
            (Worker.insertFails t e rest).1 = t) ∧
          (¬ (∀ f ∈ (now, outcome) :: rest, f.2.commits = false) →
            ∃ row, (Worker.insertFails t e rest).1.rows = t.rows ++ [row] ∧
              row.dedupeKey = event.dedupeKey) := by
      intro e he hcommits
      obtain ⟨hkeep, hnone, hsome⟩ := @ih e (he ▸ h) (he ▸ hkey)
      rw [he] at hkeep hsome
      rw [List.forall_mem_cons]
      exact ⟨hkeep, fun hall => hnone hall.2, fun hnot => hsome fun hall => hnot ⟨hcommits, hall⟩⟩
    -- and when it does
    have hfound : (t.append row).seqOf stored.dedupeKey = some (t.sequence + 1) := by
      rw [PublicEventTable.seqOf_append, hrow, hstored, h, Option.none_or]
      exact if_pos ⟨rfl, hkey⟩
    obtain ⟨hrows, hkeep⟩ := insertFails_found hfound rest
    unfold Worker.insertFails
    rw [hinsert]
    cases outcome with
    | refused => exact hlater event rfl rfl
    | rolledBack => exact hlater stored hstored rfl
    | ambiguous =>
      exact ⟨hkeep.trans hstored,
        fun hall => absurd (hall (now, .ambiguous) (by simp)) (by simp [Outcome.commits]),
        fun _ => ⟨_, hrows, hrow⟩⟩
    | committed =>
      exact ⟨hkeep.trans hstored,
        fun hall => absurd (hall (now, .committed) (by simp)) (by simp [Outcome.commits]),
        fun _ => ⟨_, hrows, hrow⟩⟩

/-- A failure that does not commit is not ambiguous. -/
theorem commits_eq_false_iff {o : Outcome} (h : o ≠ .committed) :
    o.commits = false ↔ o ≠ .ambiguous := by
  cases o with
  | refused => simp [Outcome.commits]
  | rolledBack => simp [Outcome.commits]
  | ambiguous => simp [Outcome.commits]
  | committed => exact absurd rfl h

/-- An event with a new key is delivered, unless its commit was reported as an
error. -/
theorem publishEvent_spec (s : Worker) (write : Retries Int) (event : PublicEvent)
    (hnew : s.db.publicEvents.seqOf event.dedupeKey = none) (hkey : event.dedupeKey ≠ "") :
    ∃ new published, Delivers s (s.publishEvent write event) new published ∧
      (∀ row ∈ new, row.dedupeKey = event.dedupeKey) ∧
      (published.length = new.length ↔ ∀ f ∈ write.failures, f.2 ≠ .ambiguous) := by
  have hreported : (∀ f ∈ write.failures, f.2.commits = false) ↔
      ∀ f ∈ write.failures, f.2 ≠ .ambiguous := by
    constructor
    · exact fun h f hf => (commits_eq_false_iff (write.unreported f hf)).mp (h f hf)
    · exact fun h f hf => (commits_eq_false_iff (write.unreported f hf)).mpr (h f hf)
  rw [← hreported]
  obtain ⟨hkeep, hnone, hsome⟩ := insertFails_new hnew hkey write.failures
  unfold Worker.publishEvent
  dsimp only
  generalize Worker.insertFails s.db.publicEvents event write.failures = failed
    at hkeep hnone hsome
  obtain ⟨t, last⟩ := failed
  dsimp only at hkeep hnone hsome ⊢
  by_cases hall : ∀ f ∈ write.failures, f.2.commits = false
  · -- the last attempt creates the row
    have ht := hnone hall
    subst ht
    have hfresh : s.db.publicEvents.seqOf last.dedupeKey = none := by rw [hkeep, hnew]
    obtain ⟨row, stored, hrow, -, hseq, hinsert⟩ := exists_insert_new hfresh write.last
    rw [hinsert]
    refine ⟨[{ row with seq := s.db.publicEvents.sequence + 1 }], [stored],
      delivers_publish _ rfl rfl rfl rfl ?_, ?_, ?_⟩
    · rw [List.map_singleton, List.map_singleton, hseq]
    · intro other hother
      rw [List.mem_singleton.mp hother]
      exact hrow.trans hkeep
    · exact ⟨fun _ => hall, fun _ => rfl⟩
  · -- an earlier attempt has created it
    obtain ⟨row, hrows, hrow⟩ := hsome hall
    have hfound : t.seqOf last.dedupeKey = some row.seq := by
      rw [PublicEventTable.seqOf_of_rows hrows, hkeep, hnew]
      simp [hrow, hkey]
    obtain ⟨stored, -, hinsert⟩ := exists_insert_found hfound write.last
    rw [hinsert]
    refine ⟨[row], [], ⟨hrows, (List.append_nil _).symm, rfl, rfl, List.nil_sublist _⟩, ?_, ?_⟩
    · intro other hother
      rw [List.mem_singleton.mp hother]
      exact hrow
    · constructor
      · intro hlength
        cases hlength
      · exact fun h => absurd h hall

section Env

variable [LiveEnv]

/-- No attempt of the node update commits and reports an error. -/
def NodeReported (filter : PublicIATAFilter) (job : DerivedJob) : Prop :=
  ∀ node suffix, Worker.nodeUpdate job.body = some (node, suffix) →
    (broadcastNodeUpdateForIATA filter node job.message.iata).isSome →
    ∀ f ∈ job.nodeWrite.failures, f.2 ≠ .ambiguous

/-- A node update is delivered, unless its commit was reported as an error. -/
theorem broadcastNodeUpdate_spec (s : Worker) (job : DerivedJob) (node : Node) {suffix : String}
    (hsuffix : suffix ∈ keySuffixes)
    (hnew : s.db.publicEvents.seqOf (job.message.key suffix) = none) :
    ∃ new published, Delivers s (s.broadcastNodeUpdate job node suffix) new published ∧
      (∀ row ∈ new, row.dedupeKey = job.message.key suffix) ∧
      (published.length = new.length ↔
        ((broadcastNodeUpdateForIATA s.cache.filter node job.message.iata).isSome →
          ∀ f ∈ job.nodeWrite.failures, f.2 ≠ .ambiguous)) := by
  have hframe : (if job.message.iata = "" then s.cache
        else recordExcluded s.cache job.message.iata).filter = s.cache.filter ∧
      (if job.message.iata = "" then s.cache
        else recordExcluded s.cache job.message.iata).ready = s.cache.ready := by
    split
    · exact ⟨rfl, rfl⟩
    · exact ⟨(recordExcluded_quiet ..).filter, (recordExcluded_quiet ..).ready⟩
  unfold Worker.broadcastNodeUpdate
  dsimp only
  generalize (if job.message.iata = "" then s.cache
    else recordExcluded s.cache job.message.iata) = cache at hframe
  obtain ⟨hfilter, hready⟩ := hframe
  have hexcluded : Delivers s { s with cache } [] [] :=
    ⟨(List.append_nil _).symm, (List.append_nil _).symm, hfilter, hready, List.nil_sublist _⟩
  rw [hfilter]
  cases hitem : broadcastNodeUpdateForIATA s.cache.filter node job.message.iata with
  | none =>
    refine ⟨[], [], hexcluded, ?_, ?_⟩
    · simp
    · simp
  | some item =>
    obtain ⟨new, published, hdelivers, hkeys, hlength⟩ := publishEvent_spec { s with cache }
      job.nodeWrite
      { publicEventFromData "nodeUpdate" (.node item) job.nodeWrite.last with
        dedupeKey := job.message.key suffix }
      hnew (key_ne_empty job.message hsuffix)
    refine ⟨new, published, hexcluded.trans hdelivers, hkeys, hlength.trans ?_⟩
    exact ⟨fun h _ => h, fun h => h rfl⟩

/-! ## Decisions -/

/-- The events of an edge and an activity are all delivered. -/
theorem commitDecision_spec (s : Worker) (job : DerivedJob) (decision : Decision)
    (hnew : ∀ key ∈ decision.keys job.message, s.db.publicEvents.seqOf key = none) :
    ∃ new published, Delivers s (s.commitDecision job decision) new published ∧
      (∀ row ∈ new, row.dedupeKey ∈ decision.keys job.message) ∧
      published.length = new.length := by
  have hretry := retryable_commit decision job.message
    (s.cache.filter.allows job.message.iata) job.observationID
  obtain ⟨hsame, hanswer⟩ := Retries.run_spec hretry Database.SameTables.refl
    (fun _ _ _ => Database.SameTables.trans) job.commitWrite s.db
  have hfirst := commit_new (s.cache.filter.allows job.message.iata) job.observationID
    job.commitWrite.first hnew
  unfold Worker.commitDecision
  dsimp only
  -- without a failure the only attempt creates all events, else all are published
  have hall : ∀ x ∈ (job.commitWrite.run (decision.commit job.message
      (s.cache.filter.allows job.message.iata) job.observationID) s.db).2.publicEvents,
      (x.2 || decide (1 < job.commitWrite.attempts)) = true := by
    intro x hx
    cases hfailures : job.commitWrite.failures with
    | nil =>
      have honce : job.commitWrite.first = job.commitWrite.last := by
        simp [Retries.first, hfailures]
      rw [Retries.run, hfailures] at hx
      rw [honce] at hfirst
      rw [hfirst.inserted x hx, Bool.true_or]
    | cons f rest =>
      simp [Retries.attempts, hfailures]
  generalize job.commitWrite.run (decision.commit job.message
    (s.cache.filter.allows job.message.iata) job.observationID) s.db = result
    at hsame hanswer hall
  generalize decision.commit job.message (s.cache.filter.allows job.message.iata)
    job.observationID job.commitWrite.first s.db = first at hsame hanswer hfirst
  have hseqs : (result.2.publicEvents.map Prod.fst).map PublicEvent.seq =
      (first.2.publicEvents.map Prod.fst).map PublicEvent.seq := by
    rw [List.map_map, List.map_map]
    exact (Prod.mk.inj hanswer).2
  rw [List.filter_eq_self.mpr hall]
  refine ⟨first.2.publicEvents.map Prod.fst, result.2.publicEvents.map Prod.fst,
    delivers_publish _ ?_ rfl ?_ ?_ ?_, ?_, ?_⟩
  · show result.1.publicEvents.rows = _
    rw [← hsame.rows, hfirst.rows]
  · exact (recordExcluded_quiet ..).filter
  · exact (recordExcluded_quiet ..).ready
  · rw [hseqs]
  · intro row hrow
    refine hfirst.keys.subset ?_
    obtain ⟨x, hx, rfl⟩ := List.mem_map.mp hrow
    exact List.mem_map.mpr ⟨x, hx, rfl⟩
  · simpa using congrArg List.length hseqs

/-! ## Jobs -/

omit [LiveEnv] in
/-- Rows with other keys leave a new key new. -/
theorem seqOf_none_of_delivers {s s' : Worker} {new published : List PublicEvent} {key : String}
    (h : Delivers s s' new published) (hnew : s.db.publicEvents.seqOf key = none)
    (hkeys : ∀ row ∈ new, row.dedupeKey ≠ key) : s'.db.publicEvents.seqOf key = none := by
  rw [PublicEventTable.seqOf_of_rows h.rows, hnew, Option.none_or, Option.map_eq_none_iff]
  exact List.find?_eq_none.mpr fun row hrow => by simp [hkeys row hrow]

/-- The key of a node update is none of a decision's keys. -/
theorem nodeUpdate_suffix {body : JobBody} {node : Node} {suffix : String}
    (h : Worker.nodeUpdate body = some (node, suffix)) :
    suffix ∈ keySuffixes ∧
      ∀ (m : Message) (decision : Decision), m.key suffix ∉ decision.keys m := by
  have hsuffix : suffix = ":node" ∨ suffix = ":advert-node" := by
    cases body with
    | other => cases h
    | status found =>
      obtain ⟨node', -, heq⟩ := Option.map_eq_some_iff.mp h
      exact Or.inl (Prod.mk.inj heq).2.symm
    | packet advertNode decision =>
      obtain ⟨node', -, heq⟩ := Option.map_eq_some_iff.mp h
      exact Or.inr (Prod.mk.inj heq).2.symm
  have hmem : suffix ∈ keySuffixes := by
    rcases hsuffix with rfl | rfl
    · simp [keySuffixes]
    · simp [keySuffixes]
  refine ⟨hmem, fun m decision hkey => ?_⟩
  have hapart : ∀ other ∈ [":edge-activity", ":route-pulse", ":packet-activity"],
      m.key suffix ≠ m.key other := by
    intro other hother heq
    have hother' : ∀ x ∈ [":edge-activity", ":route-pulse", ":packet-activity"],
        x ∈ keySuffixes := by decide
    have hlists := congrArg String.toList heq
    rw [toList_key m hmem, toList_key m (hother' other hother)] at hlists
    have hsame := String.toList_inj.mp (List.append_cancel_left hlists)
    subst hsame
    rcases hsuffix with rfl | rfl
    · exact absurd hother (by decide)
    · exact absurd hother (by decide)
  cases decision with
  | edge event status =>
    rcases List.mem_cons.mp hkey with heq | hkey
    · exact hapart _ (by simp) heq
    · exact hapart _ (by simp) (List.mem_singleton.mp hkey)
  | nonEdge observation status location =>
    exact hapart _ (by simp) (List.mem_singleton.mp hkey)

/-- The node update of a job, if it has one. -/
theorem updateNode_spec (s : Worker) (job : DerivedJob) (hnew : job.message.Unused s.db.publicEvents) :
    ∃ new published, Delivers s (s.updateNode job) new published ∧
      (∀ row ∈ new, ∃ node suffix, Worker.nodeUpdate job.body = some (node, suffix) ∧
        row.dedupeKey = job.message.key suffix) ∧
      (published.length = new.length ↔ NodeReported s.cache.filter job) := by
  unfold Worker.updateNode
  cases hupdate : Worker.nodeUpdate job.body with
  | none =>
    refine ⟨[], [], Delivers.refl s, fun row hrow => by simp at hrow, ?_⟩
    simp [NodeReported, hupdate]
  | some update =>
    obtain ⟨node, suffix⟩ := update
    obtain ⟨hsuffix, -⟩ := nodeUpdate_suffix hupdate
    obtain ⟨new, published, hdelivers, hkeys, hlength⟩ :=
      broadcastNodeUpdate_spec s job node hsuffix (hnew suffix hsuffix)
    refine ⟨new, published, hdelivers, fun row hrow => ⟨node, suffix, rfl, hkeys row hrow⟩,
      hlength.trans ?_⟩
    constructor
    · intro h node' suffix' hsame
      rw [hupdate] at hsame
      cases hsame
      exact h
    · exact fun h => h node suffix hupdate

/-- What a job commits and publishes. -/
theorem processDerivedMQTT_spec (s : Worker) (job : DerivedJob)
    (hnew : job.message.Unused s.db.publicEvents) :
    ∃ new published, Delivers s (s.processDerivedMQTT job) new published ∧
      (∀ row ∈ new, ∃ suffix ∈ keySuffixes, row.dedupeKey = job.message.key suffix) ∧
      (published.length = new.length ↔ NodeReported s.cache.filter job) := by
  obtain ⟨new, published, hdelivers, hkeys, hlength⟩ := updateNode_spec s job hnew
  have hknown : ∀ row ∈ new, ∃ suffix ∈ keySuffixes, row.dedupeKey = job.message.key suffix := by
    intro row hrow
    obtain ⟨node, suffix, hupdate, hkey⟩ := hkeys row hrow
    exact ⟨suffix, (nodeUpdate_suffix hupdate).1, hkey⟩
  unfold Worker.processDerivedMQTT
  generalize s.updateNode job = middle at hdelivers ⊢
  cases hbody : job.body with
  | other => exact ⟨new, published, hdelivers, hknown, hlength⟩
  | status node => exact ⟨new, published, hdelivers, hknown, hlength⟩
  | packet advertNode decision =>
    have hmiddle : ∀ key ∈ decision.keys job.message,
        middle.db.publicEvents.seqOf key = none := by
      intro key hkey
      refine seqOf_none_of_delivers hdelivers (hnew.keys decision key hkey) fun row hrow heq => ?_
      obtain ⟨node, suffix, hupdate, hrowkey⟩ := hkeys row hrow
      exact (nodeUpdate_suffix hupdate).2 job.message decision (hrowkey ▸ heq ▸ hkey)
    obtain ⟨new', published', hdelivers', hkeys', hlength'⟩ :=
      commitDecision_spec middle job decision hmiddle
    refine ⟨new ++ new', published ++ published', hdelivers.trans hdelivers', ?_, ?_⟩
    · intro row hrow
      rcases List.mem_append.mp hrow with hrow | hrow
      · exact hknown row hrow
      · exact exists_suffix_of_mem_keys (hkeys' row hrow)
    · rw [← hlength, List.length_append, List.length_append, hlength']
      omega

/-- The run lemma. -/
theorem processJobs_spec (filter : PublicIATAFilter) (jobs : List DerivedJob) (s : Worker)
    (hfilter : s.cache.filter = filter)
    (hids : (jobs.map fun job => job.message.ingestID).Nodup)
    (hnew : ∀ job ∈ jobs, job.message.Unused s.db.publicEvents) :
    ∃ new published, Delivers s (s.processJobs jobs) new published ∧
      (published.length = new.length ↔ ∀ job ∈ jobs, NodeReported filter job) := by
  induction jobs generalizing s with
  | nil => exact ⟨[], [], Delivers.refl s, by simp⟩
  | cons job jobs ih =>
    obtain ⟨hfirst, hrest⟩ := List.nodup_cons.mp hids
    obtain ⟨new, published, hdelivers, hkeys, hlength⟩ :=
      processDerivedMQTT_spec s job (hnew job (by simp))
    have hunused : ∀ other ∈ jobs,
        other.message.Unused (s.processDerivedMQTT job).db.publicEvents := by
      intro other hother suffix hsuffix
      refine seqOf_none_of_delivers hdelivers
        (hnew other (List.mem_cons_of_mem _ hother) suffix hsuffix) fun row hrow heq => ?_
      obtain ⟨suffix', hsuffix', hkey⟩ := hkeys row hrow
      have hsame := key_inj job.trimmed other.trimmed hsuffix' hsuffix (hkey.symm.trans heq)
      exact hfirst (List.mem_map.mpr ⟨other, hother, hsame.1.symm⟩)
    obtain ⟨new', published', hdelivers', hlength'⟩ :=
      ih (s.processDerivedMQTT job) (hdelivers.filter.trans hfilter) hrest hunused
    refine ⟨new ++ new', published ++ published', hdelivers.trans hdelivers', ?_⟩
    have hle := hdelivers.length_le
    have hle' := hdelivers'.length_le
    rw [hfilter] at hlength
    rw [List.forall_mem_cons, ← hlength, ← hlength', List.length_append, List.length_append]
    omega

/-- **Every committed event reaches the live clients once** exactly when no commit
of a node update is reported as an error. -/
theorem each_once_iff (db : Database) {cache : PublicStateCache} (hready : cache.ready = true)
    (hubSeq : Int) {jobs : List DerivedJob}
    (hids : (jobs.map fun job => job.message.ingestID).Nodup)
    (hnew : ∀ job ∈ jobs, job.message.Unused db.publicEvents) :
    EachOnce db.publicEvents ((startWorker db cache hubSeq).processJobs jobs) ↔
      ∀ job ∈ jobs, NodeReported cache.filter job := by
  obtain ⟨new, published, hdelivers, hlength⟩ :=
    processJobs_spec cache.filter jobs (startWorker db cache hubSeq) rfl hids hnew
  generalize (startWorker db cache hubSeq).processJobs jobs = s at hdelivers ⊢
  have hcommitted : committedRows db.publicEvents s = new := by
    rw [committedRows, hdelivers.rows]
    exact List.drop_left
  have hbroadcast : broadcastSeqs s = published.map PublicEvent.seq := by
    rw [broadcastSeqs, hdelivers.calls]
    exact seqs_publishOps .broadcast published
  have happlied : appliedSeqs s = published.map PublicEvent.seq := by
    rw [appliedSeqs, hdelivers.calls]
    exact seqs_publishOps .apply published
  have hascending : (new.map PublicEvent.seq).Pairwise (· < ·) := by
    have htable := s.db.publicEvents.ascending
    rw [hdelivers.rows] at htable
    exact List.pairwise_map.mpr (List.pairwise_append.mp htable).2.1
  have hnodup : (new.map PublicEvent.seq).Nodup := hascending.imp fun hlt => ne_of_lt hlt
  rw [← hlength]
  constructor
  · intro h
    have hsubset : new.map PublicEvent.seq ⊆ published.map PublicEvent.seq := by
      intro seq hseq
      obtain ⟨row, hrow, rfl⟩ := List.mem_map.mp hseq
      have hcount := h.broadcast row (hcommitted.symm ▸ hrow)
      rw [hbroadcast] at hcount
      exact List.count_pos_iff.mp (by omega)
    have hle := (List.subperm_of_subset hnodup hsubset).length_le
    rw [List.length_map, List.length_map] at hle
    exact Nat.le_antisymm hdelivers.length_le hle
  · intro h
    have hseqs : published.map PublicEvent.seq = new.map PublicEvent.seq :=
      hdelivers.seqs.eq_of_length (by simpa using h)
    have hone : ∀ row ∈ new, (published.map PublicEvent.seq).count row.seq = 1 := by
      intro row hrow
      rw [hseqs]
      exact List.count_eq_one_of_mem hnodup (List.mem_map_of_mem hrow)
    refine { broadcast := ?_, applied := ?_, increasing := ?_, ready := ?_ }
    · rw [hcommitted, hbroadcast]
      exact hone
    · rw [hcommitted, happlied]
      exact hone
    · rw [hbroadcast, hseqs]
      exact hascending
    · exact hdelivers.ready.trans hready

end Env

/-! ## Runs -/

section Runs

attribute [local instance] defaultEnv

/-- A message of a test node, whose decoded packet does not matter here. -/
def sampleJob (ingestID : String) (trimmed : trimSpace ingestID = ingestID) (body : JobBody)
    (nodeWrite commitWrite : Retries Int) : DerivedJob :=
  { message :=
      { ingestID, receivedAt := 1000, iata := "YOW", publisherPK := "OBS", observerName := ""
        heardAt := 1000
        parsed :=
          { packetHash := "p", rawHex := "", routeType := 1, routeTypeName := "FLOOD"
            payloadType := 4, payloadTypeName := "ADVERT", payloadVersion := 0, hashSize := 1
            hopCount := 0, pathBytes := [], payload := [], invalidForMap := false
            invalidReason := "" }
        sender := "", text := "" }
    trimmed, observationID := 1, body, nodeWrite, commitWrite }

/-- A loop with one failure. -/
def failedOnce (outcome : Outcome) (h : outcome ≠ .committed) : Retries Int :=
  { failures := [(1000, outcome)], unreported := by simpa using h, last := 1050 }

def readyCache : PublicStateCache :=
  { newPublicStateCache (newPublicIATAFilter []) with ready := true }

/-- An advert with an edge, whose commit reports an error, and a status. -/
def advertThenStatus : List DerivedJob :=
  [sampleJob "m" (by decide) (.packet (some (sampleNode "AB" 5)) (.edge sampleEdge "resolved"))
      (failedOnce .rolledBack (by decide)) (failedOnce .ambiguous (by decide)),
    sampleJob "n" (by decide) (.status (some (sampleNode "AB" 6))) (.once 2000) (.once 2000)]

/-- Four events are committed, and each is broadcast and applied once. -/
theorem advertThenStatus_each_once :
    ((startWorker emptyDatabase readyCache 0).processJobs
        advertThenStatus).db.publicEvents.rows.length = 4 ∧
      EachOnce emptyDatabase.publicEvents
        ((startWorker emptyDatabase readyCache 0).processJobs advertThenStatus) := by
  refine ⟨by decide +kernel, (each_once_iff emptyDatabase rfl 0 (by decide)
    fun job _ suffix _ => rfl).mpr ?_⟩
  intro job hjob node suffix _ _ f hf
  rcases List.mem_cons.mp hjob with rfl | hjob
  · rw [List.mem_singleton.mp hf]
    decide
  · rw [List.mem_singleton.mp hjob] at hf
    cases hf

/-- A status whose node update is committed, reported as an error and retried. -/
def ambiguousStatus : List DerivedJob :=
  [sampleJob "m" (by decide) (.status (some (sampleNode "AB" 5)))
    (failedOnce .ambiguous (by decide)) (.once 2000)]

/-- The committed node update is not broadcast. -/
theorem node_update_lost :
    ¬ ∀ (db : Database) (cache : PublicStateCache), cache.ready = true →
      ∀ (hubSeq : Int) (jobs : List DerivedJob),
      (jobs.map fun job => job.message.ingestID).Nodup →
      (∀ job ∈ jobs, job.message.Unused db.publicEvents) →
      EachOnce db.publicEvents ((startWorker db cache hubSeq).processJobs jobs) := by
  intro h
  have heach := h emptyDatabase readyCache rfl 0 ambiguousStatus (by decide)
    fun job _ suffix _ => rfl
  have hlost : ¬ ∀ row ∈ committedRows emptyDatabase.publicEvents
      ((startWorker emptyDatabase readyCache 0).processJobs ambiguousStatus),
      (broadcastSeqs ((startWorker emptyDatabase readyCache 0).processJobs
        ambiguousStatus)).count row.seq = 1 := by decide +kernel
  exact hlost heach.broadcast

end Runs

end CartoLive.Theorems.LiveBroadcast
