import CartoLive.Lib.Tally
import CartoLive.Store.Observers
import Mathlib.Order.Bounds.Defs

/-!
# First and last seen

The rows of `nodes`, `node_iatas` and `packets` hold the heard times of the first and of
the last message that was stored for them, so they hold the smallest and the largest one
exactly where the messages of a row come in between these two.
-/

namespace CartoLive.Theorems.SeenTimes

open CartoLive.Go CartoLive.Lib CartoLive.Live CartoLive.Mqtt CartoLive.Store
open CartoLive.Meshcore (Advert)

/-! ## Rows and what is heard of them -/

/-- The key of a row. -/
inductive RowKey
  | node (publicKey : String)
  | nodeIATA (publicKey iata : String)
  | packet (packetHash : String)

/-- `packets` by its primary key. -/
def packetCounting : Counting Packet String :=
  { key := fun row => row.parsed.packetHash, count := Packet.seenCount }

def nodeSpan (t : NodeTables) (publicKey : String) : Option (Int × Int) :=
  NodeRow.counting.span NodeRow.firstSeen NodeRow.lastSeen publicKey t.nodes

def nodeIATASpan (t : NodeTables) (key : String × String) : Option (Int × Int) :=
  NodeIATARow.counting.span NodeIATARow.firstSeen NodeIATARow.lastSeen key t.nodeIATAs

/-- `first_seen_ms` and `last_seen_ms` of a row. -/
def seen (db : HeardDatabase) : RowKey → Option (Int × Int)
  | .node publicKey => nodeSpan db.tables publicKey
  | .nodeIATA publicKey iata => nodeIATASpan db.tables (publicKey, iata)
  | .packet packetHash =>
    packetCounting.span Packet.firstSeen Packet.lastSeen packetHash db.ingest.packets

/-- The heard time that a message has for a row. -/
def heardTime : RowKey → HeardWrite → Option Int
  | .node publicKey, .advert _ _ advert heardAt =>
    if advert.publicKey = publicKey then some heardAt else none
  | .node publicKey, .observer _ msg =>
    if msg.subtopic = "status" ∧ msg.publisherPK = publicKey then some msg.heardAt else none
  | .nodeIATA publicKey iata, .advert _ code advert heardAt =>
    if (advert.publicKey, toUpper code) = (publicKey, iata) then some heardAt else none
  | .nodeIATA publicKey iata, .observer _ msg =>
    if msg.subtopic = "status" ∧ (msg.publisherPK, toUpper msg.iata) = (publicKey, iata) then
      some msg.heardAt
    else none
  | .packet packetHash, .packet parsed seenAt _ =>
    if parsed.packetHash = packetHash then some seenAt else none
  | _, _ => none

/-- The heard times of a row. -/
def heardTimes (key : RowKey) (messages : List HeardWrite) : List Int :=
  messages.filterMap (heardTime key)

def ingestID : HeardWrite → Option String
  | .packet _ _ insert => some insert.ingestID
  | _ => none

/-- A packet that is delivered again is not stored again. -/
def redelivered (kept : List HeardWrite) (message : HeardWrite) : Bool :=
  (ingestID message).any fun id => id ≠ "" ∧ id ∈ kept.filterMap ingestID

/-- The messages that are stored. -/
def stored (messages : List HeardWrite) : List HeardWrite :=
  messages.foldl
    (fun kept message => if redelivered kept message then kept else kept ++ [message]) []

theorem stored_append (messages : List HeardWrite) (message : HeardWrite) :
    stored (messages ++ [message]) =
      if redelivered (stored messages) message then stored messages
      else stored messages ++ [message] := by
  rw [stored, List.foldl_append]
  rfl

theorem stored_sublist (messages : List HeardWrite) : (stored messages).Sublist messages := by
  induction messages using List.reverseRecOn with
  | nil => exact List.Sublist.slnil
  | append_singleton messages message ih =>
    rw [stored_append]
    split
    · exact ih.trans (List.sublist_append_left _ _)
    · exact ih.append (List.Sublist.refl _)

/-- The stored messages of a first part come first. -/
theorem stored_prefix (messages more : List HeardWrite) :
    ∃ rest, stored (messages ++ more) = stored messages ++ rest := by
  induction more using List.reverseRecOn with
  | nil => exact ⟨[], by rw [List.append_nil, List.append_nil]⟩
  | append_singleton more message ih =>
    obtain ⟨rest, hrest⟩ := ih
    rw [← List.append_assoc, stored_append]
    split
    · exact ⟨rest, hrest⟩
    · exact ⟨rest ++ [message], by rw [hrest, List.append_assoc]⟩

/-- The heard times of the stored messages of a row. -/
def sightings (key : RowKey) (messages : List HeardWrite) : List Int :=
  (stored messages).filterMap (heardTime key)

/-! ## One write -/

section Writes

variable [LiveEnv] {parseNumber : String → Option ℚ} {db db' : HeardDatabase} {t t' : NodeTables}

/-- A row after a sighting. -/
def sighted (before : Option (Int × Int)) (time : Int) : Option (Int × Int) :=
  some ((before.map Prod.fst).getD time, time)

omit [LiveEnv] in
theorem span_upsertNode {row : NodeRow} {update : NodeRow → NodeRow} {time : Int}
    (h : t.upsertNode row update = some t') (hkey : ∀ n, (update n).publicKey = n.publicKey)
    (hkeeps : ∀ n, (update n).firstSeen = n.firstSeen) (hsets : ∀ n, (update n).lastSeen = time)
    (hfirst : row.firstSeen = time) (hlast : row.lastSeen = time) :
    (∀ publicKey, nodeSpan t' publicKey =
      if row.publicKey = publicKey then sighted (nodeSpan t row.publicKey) time
      else nodeSpan t publicKey) ∧ t'.nodeIATAs = t.nodeIATAs := by
  obtain ⟨-, h⟩ := Option.ite_none_left_eq_some.mp h
  cases h
  refine ⟨fun publicKey => ?_, rfl⟩
  exact Counting.span_bump (t := NodeRow.counting) (fun n hn => (hkey n).trans hn) rfl hkeeps hsets
    hfirst hlast t.nodes publicKey

omit [LiveEnv] in
theorem span_upsertNodeIATA {publicKey iata : String} {seenAt : Int}
    (h : t.upsertNodeIATA publicKey iata seenAt = some t') :
    (∀ key, nodeIATASpan t' key =
      if (publicKey, toUpper iata) = key then
        sighted (nodeIATASpan t (publicKey, toUpper iata)) seenAt
      else nodeIATASpan t key) ∧ t'.nodes = t.nodes := by
  obtain ⟨-, h⟩ := Option.ite_none_right_eq_some.mp h
  cases h
  refine ⟨fun key => ?_, rfl⟩
  unfold nodeIATASpan sighted
  refine Counting.span_bump ?_ ?_ ?_ ?_ ?_ ?_ t.nodeIATAs key
  exacts [fun _ hr => hr, rfl, fun _ => rfl, fun _ => rfl, rfl, rfl]

/-- Statements that write no times. -/
def Timeless : NodeStatement → Prop
  | .shortID _ | .readNode _ => True
  | _ => False

theorem exec_timeless {stmt : NodeStatement} (hstmt : Timeless stmt)
    (h : NodeTables.exec stmt t = some t') : t'.nodes = t.nodes ∧ t'.nodeIATAs = t.nodeIATAs := by
  cases stmt with
  | shortID row =>
    obtain ⟨-, h⟩ := Option.ite_none_right_eq_some.mp h
    cases h
    exact ⟨rfl, rfl⟩
  | readNode publicKey =>
    obtain ⟨_, -, rfl⟩ := Option.map_eq_some_iff.mp h
    exact ⟨rfl, rfl⟩
  | advert | status | manual | nodeIATA => exact absurd hstmt id

omit [LiveEnv] in
theorem timeless_shortIDStatements (publicKey iata role : String) (seenAt : Int) :
    ∀ stmt ∈ shortIDStatements publicKey iata role seenAt, Timeless stmt := by
  intro stmt hstmt
  obtain ⟨size, -, rfl⟩ := List.mem_map.mp hstmt
  trivial

/-- A procedure that upserts a node and its region and then writes no more times. -/
theorem span_procedure (first : NodeStatement) (rest : List NodeStatement) {publicKey iata : String}
    {time : Int}
    (hfirst : ∀ t', NodeTables.exec first t = some t' →
      (∀ other, nodeSpan t' other =
        if publicKey = other then sighted (nodeSpan t publicKey) time else nodeSpan t other) ∧
      t'.nodeIATAs = t.nodeIATAs)
    (hrest : ∀ stmt ∈ rest, Timeless stmt)
    (h : autocommit NodeTables.exec (first :: .nodeIATA publicKey iata time :: rest) none t =
      (t', true)) :
    (∀ other, nodeSpan t' other =
      if publicKey = other then sighted (nodeSpan t publicKey) time else nodeSpan t other) ∧
    ∀ key, nodeIATASpan t' key =
      if (publicKey, toUpper iata) = key then
        sighted (nodeIATASpan t (publicKey, toUpper iata)) time
      else nodeIATASpan t key := by
  obtain ⟨t₁, hnode, h⟩ := autocommit_cons_done h
  obtain ⟨t₂, hiata, h⟩ := autocommit_cons_done h
  obtain ⟨hnodes, hsame⟩ := hfirst t₁ hnode
  obtain ⟨hregions, hkept⟩ := span_upsertNodeIATA hiata
  have hlast : t' = (autocommit NodeTables.exec rest none t₂).1 := by rw [h]
  have hlastNodes : t'.nodes = t₂.nodes := by
    rw [hlast]
    exact autocommit_measure (μ := NodeTables.nodes) fun stmt hstmt _ _ hexec =>
      (exec_timeless (hrest stmt hstmt) hexec).1
  have hlastRegions : t'.nodeIATAs = t₂.nodeIATAs := by
    rw [hlast]
    exact autocommit_measure (μ := NodeTables.nodeIATAs) fun stmt hstmt _ _ hexec =>
      (exec_timeless (hrest stmt hstmt) hexec).2
  constructor
  · intro other
    rw [nodeSpan, hlastNodes, hkept]
    exact hnodes other
  · intro key
    have hbefore : ∀ key, nodeIATASpan t₁ key = nodeIATASpan t key := fun key => by
      rw [nodeIATASpan, hsame]
      rfl
    rw [nodeIATASpan, hlastRegions, ← hbefore, ← hbefore]
    exact hregions key

theorem span_upsertAdvertNode {nodeID iata : String} {advert : Advert} {heardAt : Int}
    (h : autocommit NodeTables.exec (upsertAdvertNode nodeID iata advert heardAt) none t =
      (t', true)) :
    (∀ other, nodeSpan t' other =
      if advert.publicKey = other then sighted (nodeSpan t advert.publicKey) heardAt
      else nodeSpan t other) ∧
    ∀ key, nodeIATASpan t' key =
      if (advert.publicKey, toUpper iata) = key then
        sighted (nodeIATASpan t (advert.publicKey, toUpper iata)) heardAt
      else nodeIATASpan t key := by
  unfold upsertAdvertNode at h
  rw [List.append_assoc, List.cons_append, List.cons_append, List.nil_append] at h
  have hrest : ∀ stmt ∈ shortIDStatements advert.publicKey iata advert.role heardAt ++
      [.readNode advert.publicKey], Timeless stmt := by
    intro stmt hstmt
    rcases List.mem_append.mp hstmt with hshort | hread
    · exact timeless_shortIDStatements _ _ _ _ stmt hshort
    · rw [List.mem_singleton.mp hread]
      trivial
  refine span_procedure _ _ (fun t' hexec => ?_) hrest h
  change t.upsertAdvert nodeID advert heardAt = some t' at hexec
  unfold NodeTables.upsertAdvert at hexec
  exact span_upsertNode hexec (fun _ => rfl) (fun _ => rfl) (fun _ => rfl) rfl rfl

theorem span_upsertStatusNode {nodeID : String} {status : NodeTables.StatusNode}
    (h : autocommit NodeTables.exec (upsertStatusNode nodeID status) none t = (t', true)) :
    (∀ other, nodeSpan t' other =
      if status.publisherPK = other then sighted (nodeSpan t status.publisherPK) status.heardAt
      else nodeSpan t other) ∧
    ∀ key, nodeIATASpan t' key =
      if (status.publisherPK, toUpper status.iata) = key then
        sighted (nodeIATASpan t (status.publisherPK, toUpper status.iata)) status.heardAt
      else nodeIATASpan t key := by
  refine span_procedure (.status nodeID status)
    (shortIDStatements status.publisherPK status.iata status.role status.heardAt)
    (fun t' hexec => ?_) (timeless_shortIDStatements _ _ _ _) h
  change t.upsertStatus nodeID status = some t' at hexec
  unfold NodeTables.upsertStatus at hexec
  exact span_upsertNode hexec (fun _ => rfl) (fun _ => rfl) (fun _ => rfl) rfl rfl

/-- What `UpsertObserver` does to the node tables. -/
theorem upsertObserver_spec {nodeID : String} {msg : ObserverMessage}
    (h : db.upsertObserver parseNumber nodeID msg = some db') :
    db'.ingest.packets = db.ingest.packets ∧ db'.ingest.ingestIDs = db.ingest.ingestIDs ∧
      if msg.subtopic = "status" then
        ∃ status : NodeTables.StatusNode, status.publisherPK = msg.publisherPK ∧
          status.iata = msg.iata ∧ status.heardAt = msg.heardAt ∧
          autocommit NodeTables.exec (upsertStatusNode nodeID status) none db.tables =
            (db'.tables, true)
      else db'.tables = db.tables := by
  unfold HeardDatabase.upsertObserver at h
  dsimp only at h
  by_cases hstatus : msg.subtopic = "status"
  · rw [if_pos hstatus] at h ⊢
    obtain ⟨hdone, h⟩ := Option.ite_none_right_eq_some.mp h
    cases h
    exact ⟨rfl, rfl, _, rfl, rfl, rfl, transaction_done (Prod.ext rfl hdone)⟩
  · rw [if_neg hstatus] at h ⊢
    cases h
    exact ⟨rfl, rfl, rfl⟩

/-- The rows after a write, where the message is not known: `SeenAfter db db' message`. -/
def SeenAfter (db db' : HeardDatabase) (message : HeardWrite) : Prop :=
  ∀ key, seen db' key = match heardTime key message with
    | some time => sighted (seen db key) time
    | none => seen db key

theorem seenAfter_advert {nodeID iata : String} {advert : Advert} {heardAt : Int}
    (h : db.write parseNumber (.advert nodeID iata advert heardAt) = some db') :
    SeenAfter db db' (.advert nodeID iata advert heardAt) := by
  obtain ⟨hdone, h⟩ := Option.ite_none_right_eq_some.mp h
  cases h
  obtain ⟨hnodes, hregions⟩ := span_upsertAdvertNode (Prod.ext rfl hdone)
  intro key
  cases key with
  | node publicKey =>
    refine (hnodes publicKey).trans ?_
    by_cases hkey : advert.publicKey = publicKey
    · subst hkey
      simp only [heardTime, if_true]
      rfl
    · simp only [heardTime, if_neg hkey]
      rfl
  | nodeIATA publicKey iata' =>
    refine (hregions (publicKey, iata')).trans ?_
    by_cases hkey : (advert.publicKey, toUpper iata) = (publicKey, iata')
    · obtain ⟨rfl, rfl⟩ := Prod.mk.inj hkey
      simp only [heardTime, if_true]
      rfl
    · simp only [heardTime, if_neg hkey]
      rfl
  | packet packetHash => rfl

theorem seenAfter_observer {nodeID : String} {msg : ObserverMessage}
    (h : db.write parseNumber (.observer nodeID msg) = some db') :
    SeenAfter db db' (.observer nodeID msg) := by
  obtain ⟨hpackets, -, htables⟩ := upsertObserver_spec h
  intro key
  by_cases hstatus : msg.subtopic = "status"
  · rw [if_pos hstatus] at htables
    obtain ⟨status, hpk, hiata, hheard, hdone⟩ := htables
    obtain ⟨hnodes, hregions⟩ := span_upsertStatusNode hdone
    rw [hpk, hheard] at hnodes
    rw [hpk, hiata, hheard] at hregions
    cases key with
    | node publicKey =>
      refine (hnodes publicKey).trans ?_
      by_cases hkey : msg.publisherPK = publicKey
      · subst hkey
        simp only [heardTime, hstatus, and_self, if_true]
        rfl
      · simp only [heardTime, hkey, and_false, if_false]
        rfl
    | nodeIATA publicKey iata =>
      refine (hregions (publicKey, iata)).trans ?_
      by_cases hkey : (msg.publisherPK, toUpper msg.iata) = (publicKey, iata)
      · obtain ⟨rfl, rfl⟩ := Prod.mk.inj hkey
        simp only [heardTime, hstatus, and_self, if_true]
        rfl
      · simp only [heardTime, if_neg hkey, if_neg fun hthis : _ ∧ _ => hkey hthis.2]
        rfl
    | packet packetHash =>
      unfold seen heardTime
      rw [hpackets]
  · -- other messages of an observer leave the node tables alone
    rw [if_neg hstatus] at htables
    cases key with
    | node publicKey =>
      have hsilent : heardTime (.node publicKey) (.observer nodeID msg) = none :=
        if_neg fun hthis => hstatus hthis.1
      rw [hsilent]
      exact congrArg (fun t => nodeSpan t publicKey) htables
    | nodeIATA publicKey iata =>
      have hsilent : heardTime (.nodeIATA publicKey iata) (.observer nodeID msg) = none :=
        if_neg fun hthis => hstatus hthis.1
      rw [hsilent]
      exact congrArg (fun t => nodeIATASpan t (publicKey, iata)) htables
    | packet packetHash =>
      unfold seen heardTime
      rw [hpackets]

omit [LiveEnv] in
theorem span_upsertPacket (packets : List Packet) (parsed : ParsedPacket) (seenAt : Int)
    (packetHash : String) :
    packetCounting.span Packet.firstSeen Packet.lastSeen packetHash
        (IngestDatabase.upsertPacket packets parsed seenAt) =
      if parsed.packetHash = packetHash then
        sighted (packetCounting.span Packet.firstSeen Packet.lastSeen parsed.packetHash packets) seenAt
      else packetCounting.span Packet.firstSeen Packet.lastSeen packetHash packets := by
  refine Counting.span_bump ?_ ?_ ?_ ?_ ?_ ?_ packets packetHash
  exacts [fun _ hrow => hrow, rfl, fun _ => rfl, fun _ => rfl, rfl, rfl]

theorem seenAfter_packet {parsed : ParsedPacket} {seenAt : Int} {insert : ObservationInsert}
    (h : db.write parseNumber (.packet parsed seenAt insert) = some db')
    (hnew : db.ingest.observationByIngestID insert.ingestID = none) :
    SeenAfter db db' (.packet parsed seenAt insert) := by
  cases h
  have hpackets : (db.ingest.upsertPacketAndObservation parsed seenAt insert).1.packets =
      IngestDatabase.upsertPacket db.ingest.packets parsed seenAt := by
    unfold IngestDatabase.upsertPacketAndObservation
    rw [hnew]
  intro key
  cases key with
  | node publicKey => rfl
  | nodeIATA publicKey iata => rfl
  | packet packetHash =>
    unfold seen
    dsimp only
    rw [hpackets, span_upsertPacket]
    by_cases hkey : parsed.packetHash = packetHash
    · subst hkey
      simp only [heardTime, if_true]
    · simp only [heardTime, if_neg hkey]

/-! ## Runs -/

/-- What a run knows of the messages it has stored. -/
structure Heard (messages : List HeardWrite) (db : HeardDatabase) : Prop where
  known : db.ingest.ingestIDs.map Prod.fst = (stored messages).filterMap ingestID
  seen : ∀ key, seen db key = spanOf (sightings key messages)

omit [LiveEnv] in
/-- A lookup by ingest identifier finds what the run has stored. -/
theorem Heard.observationByIngestID_eq_none_iff {messages : List HeardWrite} (h : Heard messages db)
    (id : String) : db.ingest.observationByIngestID id = none ↔
      ¬(id ≠ "" ∧ id ∈ (stored messages).filterMap ingestID) := by
  rw [← h.known, IngestDatabase.observationByIngestID, Option.map_eq_none_iff, List.find?_eq_none]
  constructor
  · rintro hnone ⟨hid, hmem⟩
    obtain ⟨row, hrow, rfl⟩ := List.mem_map.mp hmem
    exact hnone row hrow (by simpa using hid)
  · intro hnot row hrow hfound
    obtain ⟨rfl, hid⟩ : row.1 = id ∧ row.1 ≠ "" := by simpa using hfound
    exact hnot ⟨hid, List.mem_map_of_mem hrow⟩

omit [LiveEnv] in
theorem heard_append {messages : List HeardWrite} {message : HeardWrite} (h : Heard messages db)
    (hstored : redelivered (stored messages) message = false)
    (hknown : db'.ingest.ingestIDs.map Prod.fst =
      db.ingest.ingestIDs.map Prod.fst ++ (ingestID message).toList)
    (hseen : SeenAfter db db' message) : Heard (messages ++ [message]) db' := by
  have hkept : stored (messages ++ [message]) = stored messages ++ [message] := by
    rw [stored_append, hstored]
    rfl
  constructor
  · rw [hknown, h.known, hkept, List.filterMap_append]
    cases hid : ingestID message <;> simp [hid]
  · intro key
    have hsightings : sightings key (messages ++ [message]) =
        sightings key messages ++ (heardTime key message).toList := by
      rw [sightings, hkept, List.filterMap_append]
      cases htime : heardTime key message <;> simp [sightings, htime]
    rw [hseen key, hsightings, h.seen key]
    cases heardTime key message with
    | none => rw [Option.toList_none, List.append_nil]
    | some time => exact (spanOf_append _ _).symm

/-- A run keeps the first and the last stored sighting of every row. -/
theorem heard_writes {messages : List HeardWrite}
    (h : HeardDatabase.writes parseNumber messages = some db) : Heard messages db := by
  induction messages using List.reverseRecOn generalizing db with
  | nil =>
    cases h
    exact ⟨rfl, fun key => by cases key <;> rfl⟩
  | append_singleton messages message ih =>
    unfold HeardDatabase.writes at h
    rw [List.foldlM_append] at h
    obtain ⟨before, hbefore, hlast⟩ := Option.bind_eq_some_iff.mp h
    obtain ⟨_, hwrite, hdone⟩ := Option.bind_eq_some_iff.mp hlast
    cases hdone
    have hheard := ih hbefore
    cases message with
    | advert nodeID iata advert heardAt =>
      have hseen := seenAfter_advert hwrite
      obtain ⟨-, hdb⟩ := Option.ite_none_right_eq_some.mp hwrite
      cases hdb
      exact heard_append hheard rfl (List.append_nil _).symm hseen
    | observer nodeID msg =>
      obtain ⟨-, hids, -⟩ := upsertObserver_spec hwrite
      refine heard_append hheard rfl ?_ (seenAfter_observer hwrite)
      rw [hids]
      exact (List.append_nil _).symm
    | packet parsed seenAt insert =>
      cases hfound : before.ingest.observationByIngestID insert.ingestID with
      | none =>
        have hnew := (hheard.observationByIngestID_eq_none_iff insert.ingestID).mp hfound
        refine heard_append hheard (by simpa [redelivered, ingestID] using hnew) ?_
          (seenAfter_packet hwrite hfound)
        cases hwrite
        unfold IngestDatabase.upsertPacketAndObservation
        rw [hfound]
        exact List.map_append
      | some id =>
        -- a packet that is delivered again changes nothing
        have hagain : redelivered (stored messages) (.packet parsed seenAt insert) = true := by
          by_contra hnew
          have := (hheard.observationByIngestID_eq_none_iff insert.ingestID).mpr
            (by simpa [redelivered, ingestID] using hnew)
          rw [hfound] at this
          cases this
        have hsame : db = before := by
          cases hwrite
          unfold IngestDatabase.upsertPacketAndObservation
          rw [hfound]
        have hkept : stored (messages ++ [.packet parsed seenAt insert]) = stored messages := by
          rw [stored_append, hagain]
          rfl
        rw [hsame]
        exact ⟨by rw [hkept]; exact hheard.known, fun key => by
          rw [sightings, hkept]
          exact hheard.seen key⟩

/-! ## First and last seen -/

/-- After the messages, the rows hold the smallest and the largest of their heard times, and on the
way the first one is never after the last one. -/
structure FirstAndLast (parseNumber : String → Option ℚ) (messages : List HeardWrite)
    (db : HeardDatabase) : Prop where
  bounds : ∀ key first last, seen db key = some (first, last) →
    IsLeast {time | time ∈ heardTimes key messages} first ∧
      IsGreatest {time | time ∈ heardTimes key messages} last
  ordered : ∀ before after between, messages = before ++ after →
    HeardDatabase.writes parseNumber before = some between →
      ∀ key first last, seen between key = some (first, last) → first ≤ last

/-- The heard times of every row are between those of the first and of the last message that is
stored for it. -/
def BetweenEnds (messages : List HeardWrite) : Prop :=
  ∀ key first last, spanOf (sightings key messages) = some (first, last) →
    ∀ time ∈ heardTimes key messages, first ≤ time ∧ time ≤ last

omit [LiveEnv] in
theorem sightings_subset {key : RowKey} {messages : List HeardWrite} {time : Int}
    (h : time ∈ sightings key messages) : time ∈ heardTimes key messages :=
  ((stored_sublist messages).filterMap (heardTime key)).subset h

/-- The columns hold the smallest and the largest heard time iff the first and the last message that
is stored for a row have them. -/
theorem seen_times_iff_between_ends {messages : List HeardWrite}
    (h : HeardDatabase.writes parseNumber messages = some db) :
    FirstAndLast parseNumber messages db ↔ BetweenEnds messages := by
  have hheard := heard_writes h
  constructor
  · intro hseen key first last hspan time htime
    rw [← hheard.seen key] at hspan
    obtain ⟨hleast, hgreatest⟩ := hseen.bounds key first last hspan
    exact ⟨hleast.2 htime, hgreatest.2 htime⟩
  · intro hbetween
    refine ⟨fun key first last hspan => ?_, fun before after between hsplit hbefore => ?_⟩
    · rw [hheard.seen key] at hspan
      obtain ⟨hfirst, hlast⟩ := mem_of_spanOf hspan
      exact ⟨⟨sightings_subset hfirst, fun time htime => (hbetween key first last hspan time htime).1⟩,
        ⟨sightings_subset hlast, fun time htime => (hbetween key first last hspan time htime).2⟩⟩
    · -- the first time stays, and the last one so far is a heard time
      intro key first last hspan
      rw [(heard_writes hbefore).seen key] at hspan
      obtain ⟨rest, hrest⟩ := stored_prefix before after
      obtain ⟨finish, hwhole, hlast⟩ :=
        spanOf_of_append (rest.filterMap (heardTime key)) hspan
      rw [sightings, ← List.filterMap_append, ← hrest, ← hsplit] at hwhole hlast
      exact (hbetween key first finish hwhole last (sightings_subset hlast)).1

end Writes

/-! ## Messages out of order -/

attribute [local instance] defaultEnv

def samplePacket (ingestID : String) (heardAt : Int) : HeardWrite :=
  let parsed : ParsedPacket :=
    { packetHash := "1F2E", rawHex := "", routeType := 1, routeTypeName := "FLOOD", payloadType := 2
      payloadTypeName := "TXT_MSG", payloadVersion := 0, hashSize := 1, hopCount := 0, pathBytes := []
      payload := [], invalidForMap := false, invalidReason := "" }
  .packet parsed heardAt
    { ingestID, publisherPK := "", iata := "YVR", observerName := "", heardAt, parsed
      messageSender := "", messageText := "" }

def sampleStatus (nodeID : String) (heardAt : Int) : HeardWrite :=
  .observer nodeID
    { publisherPK := "ABCDEF", iata := "YVR", subtopic := "status", observerName := "", payload := []
      rawJSON := "", heardAt }

/-- A node and a packet, heard twice each. -/
def heardTwice : List HeardWrite :=
  [sampleStatus "n1" 1000, samplePacket "m1" 1000, sampleStatus "n2" 2000, samplePacket "m2" 2000]

theorem seen_times_iff_between_ends_of_two :
    ∃ db, HeardDatabase.writes (fun _ => none) heardTwice = some db ∧
      (FirstAndLast (fun _ => none) heardTwice db ↔ BetweenEnds heardTwice) := by
  have hstored : (HeardDatabase.writes (fun _ => none) heardTwice).isSome := by decide +kernel
  obtain ⟨db, hdb⟩ := Option.isSome_iff_exists.mp hstored
  exact ⟨db, hdb, seen_times_iff_between_ends hdb⟩

/-- A packet whose second observer has heard it earlier. -/
theorem last_seen_before_first :
    ¬ ∀ (parseNumber : String → Option ℚ) (messages : List HeardWrite) (db : HeardDatabase),
      HeardDatabase.writes parseNumber messages = some db → FirstAndLast parseNumber messages db := by
  intro h
  have hspan : (HeardDatabase.writes (fun _ => none)
      [samplePacket "m1" 2000, samplePacket "m2" 1000]).map (fun db => seen db (.packet "1F2E")) =
        some (some (2000, 1000)) := by decide +kernel
  obtain ⟨db, hdb, hseen⟩ := Option.map_eq_some_iff.mp hspan
  have hordered := (h _ _ db hdb).ordered _ [] db (List.append_nil _).symm hdb _ _ _ hseen
  omega

end CartoLive.Theorems.SeenTimes
