import CartoLive.App.Backend
import CartoLive.Store.Ingest

/-!
# The ingest of one message

The upsert of `handleMQTTOutcome` (`derived_ingest.go`), the dedupe keys of a
message, and the commit that `processDerivedMQTT` (`lifecycle.go`) makes for what
it has decided about a packet. Messages with different identifiers use different
keys, a commit can be retried, and one with unused keys creates all its events.
-/

namespace CartoLive.App

open CartoLive.Lib CartoLive.Go CartoLive.Live CartoLive.Store

/-! ## Messages -/

/-- `NormalizedMessage` with its decoded packet. -/
structure Message where
  ingestID : String
  receivedAt : Int
  iata : String
  publisherPK : String
  observerName : String
  heardAt : Int
  parsed : ParsedPacket
  sender : String
  text : String

/-- The row that `handleMQTTOutcome` asks for. -/
def Message.insert (m : Message) : ObservationInsert :=
  { ingestID := m.ingestID, publisherPK := m.publisherPK, iata := m.iata
    observerName := m.observerName, heardAt := m.heardAt, parsed := m.parsed
    messageSender := m.sender, messageText := m.text }

/-- The `UpsertPacketAndObservation` of `handleMQTTOutcome`. -/
def Message.upsert (m : Message) (db : IngestDatabase) : IngestDatabase × Int × Bool :=
  db.upsertPacketAndObservation m.parsed m.heardAt m.insert

/-- What the parts of `processDerivedMQTT` append to an ingest identifier. -/
def keySuffixes : List String :=
  [":node", ":advert-node", ":edge-activity", ":route-pulse", ":packet-activity"]

/-- The dedupe key of a public event of a message. -/
def Message.key (m : Message) (suffix : String) : String := trimSpace (m.ingestID ++ suffix)

theorem toList_key (m : Message) {suffix : String} (h : suffix ∈ keySuffixes) :
    (m.key suffix).toList = m.ingestID.toList.dropWhile isSpace ++ suffix.toList := by
  have hshape : ∀ s ∈ keySuffixes, (s.toList.head?.all fun c => !isSpace c) ∧
      (s.toList.getLast?.all fun c => !isSpace c) ∧ s.toList ≠ [] := by decide
  obtain ⟨hfirst, hlast, hne⟩ := hshape suffix h
  refine toList_trimSpace_append m.ingestID suffix (fun c hc => ?_) (fun c hc => ?_) hne
  · simpa [Option.mem_def.mp hc] using hfirst
  · simpa [Option.mem_def.mp hc] using hlast

theorem key_ne_empty (m : Message) {suffix : String} (h : suffix ∈ keySuffixes) :
    m.key suffix ≠ "" := by
  intro hempty
  have hnil := (toList_key m h).symm.trans (congrArg String.toList hempty)
  have hne : ∀ s ∈ keySuffixes, s.toList ≠ [] := by decide
  exact hne suffix h (List.append_eq_nil_iff.mp hnil).2

/-- The keys of messages whose identifiers differ do not meet. -/
theorem key_inj {m m' : Message} (hm : trimSpace m.ingestID = m.ingestID)
    (hm' : trimSpace m'.ingestID = m'.ingestID) {s s' : String} (hs : s ∈ keySuffixes)
    (hs' : s' ∈ keySuffixes) (h : m.key s = m'.key s') : m.ingestID = m'.ingestID ∧ s = s' := by
  have hlists : m.ingestID.toList ++ s.toList = m'.ingestID.toList ++ s'.toList := by
    have hkeys := congrArg String.toList h
    rwa [toList_key m hs, toList_key m' hs', dropWhile_of_trimSpace hm,
      dropWhile_of_trimSpace hm'] at hkeys
  -- no suffix ends in another one
  have hends : ∀ a ∈ keySuffixes, ∀ b ∈ keySuffixes, a.toList <:+ b.toList → a = b := by decide
  have hsuffix : s.toList <:+ m'.ingestID.toList ++ s'.toList :=
    hlists ▸ List.suffix_append m.ingestID.toList s.toList
  have hsuffix' : s'.toList <:+ m'.ingestID.toList ++ s'.toList := List.suffix_append ..
  have heq : s = s' := by
    rcases Nat.le_total s.toList.length s'.toList.length with hle | hle
    · exact hends s hs s' hs' (List.suffix_of_suffix_length_le hsuffix hsuffix' hle)
    · exact (hends s' hs' s hs (List.suffix_of_suffix_length_le hsuffix' hsuffix hle)).symm
  subst heq
  exact ⟨String.toList_inj.mp (List.append_cancel_right hlists), rfl⟩

section Env

variable [LiveEnv]

/-! ## Decisions -/

/-- What `processDerivedMQTT` decides about a packet. -/
inductive Decision
  | edge (event : EdgeEvent) (status : String)
  /-- The observation is missing when its lookup fails. -/
  | nonEdge (observation : Option PacketObservation) (status : String)
      (location : Option PublicObserverLocation)

/-- The result of `CommitLiveEdge` or `CommitNonEdgeActivity`. -/
structure CommitResult where
  edgeID : Option Int
  publicEvents : List (PublicEvent × Bool)

/-- What a caller learns: the edge and the sequences of its events. -/
def CommitResult.answer (r : CommitResult) : Option Int × List Int :=
  (r.edgeID, r.publicEvents.map fun x => x.1.seq)

/-- The request of `processDerivedMQTT`. -/
def Message.edgeRequest (m : Message) (publicAllowed : Bool) (edge : EdgeEvent) (status : String) :
    Database.LiveEdgeCommitRequest :=
  { edge := { edge with ingestID := m.ingestID ++ ":edge" }
    resolutionStatus := status
    publishPublicEvents := publicAllowed
    activityDedupeKey := m.ingestID ++ ":edge-activity"
    routePulseDedupeKey := m.ingestID ++ ":route-pulse"
    receivedAt := m.receivedAt }

/-- The activity of `commitNonEdgeActivity`. -/
def Message.activityEvent (m : Message) (publicAllowed : Bool)
    (observation : Option PacketObservation) (status : String)
    (location : Option PublicObserverLocation) (now : Int) : Option PublicEvent :=
  if publicAllowed then
    observation.map fun o =>
      let o := { o with messageSender := m.sender, messageText := m.text, resolutionStatus := status }
      { publicEventFromData "activity" (.activity (publicActivityFromPacket o [] location)) now with
        dedupeKey := m.key ":packet-activity", receivedAt := m.receivedAt }
  else none

/-- One attempt of the commit of a decision, at `now`. -/
def Decision.commit (d : Decision) (m : Message) (publicAllowed : Bool) (observationID : Int)
    (now : Int) (db : Database) : Database × CommitResult :=
  match d with
  | .edge event status =>
    let (db, stored, publicEvents) :=
      db.commitLiveEdge now (m.edgeRequest publicAllowed event status)
    (db, { edgeID := some stored.id, publicEvents })
  | .nonEdge observation status location =>
    let (db, publicEvents) := db.commitNonEdgeActivity now observationID status
      (m.activityEvent publicAllowed observation status location now)
    (db, { edgeID := none, publicEvents })

omit [LiveEnv] in
theorem edgeRequest_keyed (m : Message) (publicAllowed : Bool) (edge : EdgeEvent)
    (status : String) : (m.edgeRequest publicAllowed edge status).Keyed where
  ingestID hempty := by
    have hlist : m.ingestID.toList ++ ":edge".toList = [] := by
      rw [← String.toList_append]
      exact congrArg String.toList hempty
    exact absurd (List.append_eq_nil_iff.mp hlist).2 (by decide)
  activity := key_ne_empty m (by decide)
  pulse := key_ne_empty m (by decide)

/-- The dedupe key of the activity of a decision without an edge. -/
def Message.activityKey (m : Message) (publicAllowed : Bool)
    (observation : Option PacketObservation) : Option String :=
  if publicAllowed then observation.map fun _ => m.key ":packet-activity" else none

theorem dedupeKey_activityEvent (m : Message) (publicAllowed : Bool)
    (observation : Option PacketObservation) (status : String)
    (location : Option PublicObserverLocation) (now : Int) :
    (m.activityEvent publicAllowed observation status location now).map PublicEvent.dedupeKey =
      m.activityKey publicAllowed observation := by
  unfold Message.activityEvent Message.activityKey
  split
  · cases observation <;> rfl
  · rfl

omit [LiveEnv] in
theorem activityKey_ne (m : Message) (publicAllowed : Bool)
    (observation : Option PacketObservation) :
    m.activityKey publicAllowed observation ≠ some "" := by
  unfold Message.activityKey
  split
  · cases observation with
    | none => simp
    | some o => exact fun h => key_ne_empty m (by decide) (Option.some.inj h)
  · simp

/-- A database knows the answer of a commit. -/
def Decision.Answered (d : Decision) (m : Message) (publicAllowed : Bool) (observationID : Int)
    (db : Database) (answer : Option Int × List Int) : Prop :=
  match d with
  | .edge event status =>
    let request := m.edgeRequest publicAllowed event status
    ∃ id, answer.1 = some id ∧ db.edgeByIngestID request.edge.ingestID = some id ∧
      (request.eventKeys id).map db.publicEvents.seqOf = answer.2.map some
  | .nonEdge observation status _ =>
    answer.1 = none ∧
      (∀ o ∈ db.observations, o.id = observationID → o.resolutionStatus = status) ∧
      (m.activityKey publicAllowed observation).toList.map db.publicEvents.seqOf =
        answer.2.map some

/-- The commit of a decision can be retried. -/
theorem retryable_commit (d : Decision) (m : Message) (publicAllowed : Bool)
    (observationID : Int) :
    Retryable (d.commit m publicAllowed observationID) CommitResult.answer
      (d.Answered m publicAllowed observationID) Database.SameTables := by
  cases d with
  | edge edge status =>
    have hretry := Database.retryable_commitLiveEdge (edgeRequest_keyed m publicAllowed edge status)
    constructor
    · intro now db
      obtain ⟨hedge, hseqs⟩ := hretry.settles now db
      exact ⟨_, rfl, hedge, hseqs⟩
    · rintro now db ⟨_, seqs⟩ ⟨id, rfl, hedge, hseqs⟩
      obtain ⟨hsame, hout⟩ := hretry.again now db (id, seqs) ⟨hedge, hseqs⟩
      obtain ⟨hid, hevents⟩ := Prod.mk.inj hout
      exact ⟨hsame, Prod.ext (congrArg some hid) hevents⟩
  | nonEdge observation status location =>
    have hretry := Database.retryable_commitNonEdgeActivity
      (dedupeKey_activityEvent m publicAllowed observation status location)
      (activityKey_ne m publicAllowed observation) observationID status
    constructor
    · intro now db
      obtain ⟨hset, hseqs⟩ := hretry.settles now db
      exact ⟨rfl, hset, hseqs⟩
    · rintro now db ⟨_, seqs⟩ ⟨rfl, hset, hseqs⟩
      obtain ⟨hsame, hout⟩ := hretry.again now db seqs ⟨hset, hseqs⟩
      exact ⟨hsame, Prod.ext rfl hout⟩

/-- The dedupe keys that a decision may use, in the order of their events. -/
def Decision.keys (d : Decision) (m : Message) : List String :=
  match d with
  | .edge _ _ => [m.key ":edge-activity", m.key ":route-pulse"]
  | .nonEdge _ _ _ => [m.key ":packet-activity"]

omit [LiveEnv] in
theorem nodup_keys (d : Decision) (m : Message) : (d.keys m).Nodup := by
  cases d with
  | edge event status =>
    refine List.nodup_cons.mpr ⟨fun hmem => ?_, List.nodup_singleton _⟩
    have hlists := congrArg String.toList (List.mem_singleton.mp hmem)
    rw [toList_key m (by decide), toList_key m (by decide)] at hlists
    exact absurd (List.append_cancel_left hlists) (by decide)
  | nonEdge observation status location => exact List.nodup_singleton _

omit [LiveEnv] in
theorem exists_suffix_of_mem_keys {d : Decision} {m : Message} {key : String}
    (h : key ∈ d.keys m) : ∃ suffix ∈ keySuffixes, key = m.key suffix := by
  cases d with
  | edge event status =>
    rcases List.mem_cons.mp h with rfl | h
    · exact ⟨_, by decide, rfl⟩
    · exact ⟨_, by decide, List.mem_singleton.mp h⟩
  | nonEdge observation status location => exact ⟨_, by decide, List.mem_singleton.mp h⟩

/-- A commit inserts events with the keys of its decision, once each. -/
theorem commit_inserts (d : Decision) (m : Message) (publicAllowed : Bool)
    (observationID now : Int) (db : Database) :
    ∃ events : List PublicEvent, (events.map PublicEvent.dedupeKey).Sublist (d.keys m) ∧
      (d.commit m publicAllowed observationID now db).1.publicEvents =
        (db.publicEvents.insertPublicEventsOnce now events).1 ∧
      (d.commit m publicAllowed observationID now db).2.publicEvents =
        (db.publicEvents.insertPublicEventsOnce now events).2 := by
  cases d with
  | edge event status =>
    let request := m.edgeRequest publicAllowed event status
    let inserted := db.insertEdgeEventCoreTx request.edge request.resolutionStatus
    have hsame : inserted.1.publicEvents = db.publicEvents :=
      Database.insertEdgeEventCoreTx_publicEvents db _ _
    refine ⟨request.events inserted.2 now, ?_, ?_, ?_⟩
    · show List.Sublist _ [m.key ":edge-activity", m.key ":route-pulse"]
      unfold Database.LiveEdgeCommitRequest.events Database.edgeEvents
      split
      · cases publicActivityFromEdge inserted.2 with
        | none =>
          cases publicRoutePulseFromEdge inserted.2 [] with
          | none => exact List.nil_sublist _
          | some pulse => exact List.sublist_cons_self _ _
        | some activity =>
          cases publicRoutePulseFromEdge inserted.2 [] with
          | none => exact List.Sublist.cons_cons _ (List.nil_sublist _)
          | some pulse => exact List.Sublist.refl _
      · exact List.nil_sublist _
    · exact congrArg (fun table : PublicEventTable =>
        (table.insertPublicEventsOnce now (request.events inserted.2 now)).1) hsame
    · exact congrArg (fun table : PublicEventTable =>
        (table.insertPublicEventsOnce now (request.events inserted.2 now)).2) hsame
  | nonEdge observation status location =>
    refine ⟨(m.activityEvent publicAllowed observation status location now).toList, ?_, rfl, rfl⟩
    show List.Sublist _ [m.key ":packet-activity"]
    unfold Message.activityEvent
    split
    · cases observation with
      | none => exact List.nil_sublist _
      | some o => exact List.Sublist.refl _
    · exact List.nil_sublist _

/-- A commit does not touch the observers. -/
theorem observers_commit (d : Decision) (m : Message) (publicAllowed : Bool)
    (observationID now : Int) (db : Database) :
    (d.commit m publicAllowed observationID now db).1.observers = db.observers := by
  cases d with
  | edge event status =>
    show (db.insertEdgeEventCoreTx _ _).1.observers = db.observers
    unfold Database.insertEdgeEventCoreTx
    split
    · rfl
    · by_cases hstatus : (m.edgeRequest publicAllowed event status).resolutionStatus = ""
      · simp only [if_pos hstatus]
      · simp only [if_neg hstatus, Database.setResolution]
  | nonEdge observation status location => rfl

/-- The keys of a message are not in use. -/
def Message.Unused (m : Message) (t : PublicEventTable) : Prop :=
  ∀ suffix ∈ keySuffixes, t.seqOf (m.key suffix) = none

omit [LiveEnv] in
theorem Message.Unused.keys {m : Message} {t : PublicEventTable} (h : m.Unused t) (d : Decision) :
    ∀ key ∈ d.keys m, t.seqOf key = none := by
  intro key hkey
  obtain ⟨suffix, hsuffix, rfl⟩ := exists_suffix_of_mem_keys hkey
  exact h suffix hsuffix

/-- A commit with unused keys creates all its events. -/
structure CommitsNew (d : Decision) (m : Message) (db : Database) (result : Database × CommitResult) :
    Prop where
  rows : result.1.publicEvents.rows =
    db.publicEvents.rows ++ result.2.publicEvents.map Prod.fst
  inserted : ∀ x ∈ result.2.publicEvents, x.2 = true
  keys : (result.2.publicEvents.map fun x => x.1.dedupeKey).Sublist (d.keys m)

theorem commit_new {d : Decision} {m : Message} (publicAllowed : Bool)
    (observationID now : Int) {db : Database}
    (h : ∀ key ∈ d.keys m, db.publicEvents.seqOf key = none) :
    CommitsNew d m db (d.commit m publicAllowed observationID now db) := by
  obtain ⟨events, hkeys, htable, hresult⟩ := commit_inserts d m publicAllowed observationID now db
  have hnodup := (nodup_keys d m).sublist hkeys
  have hnew : ∀ event ∈ events, db.publicEvents.seqOf event.dedupeKey = none :=
    fun event hevent => h _ (hkeys.subset (List.mem_map_of_mem hevent))
  constructor
  · rw [htable, hresult]
    exact PublicEventTable.rows_insertPublicEventsOnce_new hnodup hnew now
  · rw [hresult]
    exact PublicEventTable.insertPublicEventsOnce_new hnodup hnew now
  · rw [hresult, PublicEventTable.dedupeKey_insertPublicEventsOnce]
    exact hkeys

end Env

end CartoLive.App

/-!
## The worker and its retries

`processDerivedMQTT` (`lifecycle.go`) with `retryStoreWriteLane` around its writes
of public events, and the publication of what it has committed. What the reads of
the store and the resolver answer is part of a job, and so is what becomes of
each attempt.

Durable public events are enabled, and every retry loop ends in success. The
other hub, the projection queue and the runtime statistics are left out.
-/

namespace CartoLive.App

open CartoLive.Lib CartoLive.Go CartoLive.Live CartoLive.Store

/-! ## Jobs -/

inductive JobBody
  /-- A subtopic without derived work. -/
  | other
  /-- The node of the publisher, when `NodeByPublicKey` finds one. -/
  | status (node : Option Node)
  /-- The node that `UpsertAdvertNode` returned for an advert. -/
  | packet (advertNode : Option Node) (decision : Decision)

/-- `derivedIngestJob` with the attempts of its writes. An ingest identifier is a
UUID, without blanks at its ends. -/
structure DerivedJob where
  message : Message
  trimmed : trimSpace message.ingestID = message.ingestID
  observationID : Int
  body : JobBody
  nodeWrite : Retries Int
  commitWrite : Retries Int

/-- The state that the worker writes, and its calls of `PublicStateCache.Apply*`
and `PublicHub.BroadcastPublicEvent`. -/
structure Worker where
  db : Database
  cache : PublicStateCache
  hubSeq : Int
  calls : List (PublicEvent × Op)

namespace Worker

def perform (now : Int) (s : Worker) (call : PublicEvent × Op) : Worker :=
  match call.2 with
  | .apply =>
    { s with
      cache := s.cache.apply now (publicEventDataWithSeq call.1.data call.1.seq)
      calls := s.calls ++ [call] }
  | .broadcast =>
    { s with
      hubSeq := if 0 < call.1.seq then setLatestSeq s.hubSeq call.1.seq else s.hubSeq
      calls := s.calls ++ [call] }

/-- The publication of committed events, one after the other. -/
def publish (s : Worker) (now : Int) (events : List PublicEvent) : Worker :=
  (events.flatMap publishOps).foldl (perform now) s

/-- The failed attempts of `InsertPublicEventsOnce` on one event, which an attempt
overwrites with what it has stored, whatever becomes of its commit. -/
def insertFails (t : PublicEventTable) (event : PublicEvent) :
    List (Int × Outcome) → PublicEventTable × PublicEvent
  | [] => (t, event)
  | (now, outcome) :: rest =>
    let (t', stored, _) := t.insertPublicEventOnceTx now event
    match outcome with
    | .refused => insertFails t event rest
    | .rolledBack => insertFails t stored rest
    | .ambiguous | .committed => insertFails t' stored rest

/-- `publishPublicEventBatch` with one event, which is published when the last
attempt has created it. -/
def publishEvent (s : Worker) (write : Retries Int) (event : PublicEvent) : Worker :=
  let failed := insertFails s.db.publicEvents event write.failures
  let inserted := failed.1.insertPublicEventOnceTx write.last failed.2
  let s := { s with db := { s.db with publicEvents := inserted.1 } }
  if inserted.2.2 then s.publish write.last [inserted.2.1] else s

section Env

variable [LiveEnv]

/-- `broadcastNodeUpdateForIATA`. -/
def broadcastNodeUpdate (s : Worker) (job : DerivedJob) (node : Node) (suffix : String) : Worker :=
  let iata := job.message.iata
  let s := { s with cache := if iata = "" then s.cache else recordExcluded s.cache iata }
  match broadcastNodeUpdateForIATA s.cache.filter node iata with
  | none => s
  | some item =>
    s.publishEvent job.nodeWrite
      { publicEventFromData "nodeUpdate" (.node item) job.nodeWrite.last with
        dedupeKey := job.message.key suffix }

/-- The end of `processDerivedMQTT` and `commitNonEdgeActivity`: events are
published when the last attempt has created them or was not the only one. -/
def commitDecision (s : Worker) (job : DerivedJob) (decision : Decision) : Worker :=
  let publicAllowed := s.cache.filter.allows job.message.iata
  let (db, result) := job.commitWrite.run
    (decision.commit job.message publicAllowed job.observationID) s.db
  let s := { s with db, cache := recordExcluded s.cache job.message.iata }
  s.publish job.commitWrite.last
    ((result.publicEvents.filter fun x => x.2 || 1 < job.commitWrite.attempts).map Prod.fst)

/-- The node update of a job, and the end of its dedupe key. -/
def nodeUpdate (body : JobBody) : Option (Node × String) :=
  match body with
  | .other => none
  | .status node =>
    (node.filter fun node =>
      (coordinateInclusion node.latitude node.longitude "").mappable).map fun node =>
        (node, ":node")
  | .packet advertNode _ => advertNode.map fun node => (node, ":advert-node")

/-- The calls of `broadcastNodeUpdateForIATA`. -/
def updateNode (s : Worker) (job : DerivedJob) : Worker :=
  match nodeUpdate job.body with
  | some (node, suffix) => s.broadcastNodeUpdate job node suffix
  | none => s

/-- `processDerivedMQTT`. -/
def processDerivedMQTT (s : Worker) (job : DerivedJob) : Worker :=
  match job.body with
  | .packet _ decision => (s.updateNode job).commitDecision job decision
  | .other | .status _ => s.updateNode job

/-- The jobs of `derivedIngestLoop`, one after the other. -/
def processJobs (s : Worker) (jobs : List DerivedJob) : Worker :=
  jobs.foldl processDerivedMQTT s

end Env

end Worker

end CartoLive.App
