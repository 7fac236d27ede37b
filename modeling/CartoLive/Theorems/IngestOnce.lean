import CartoLive.App.DerivedIngest

/-!
# Retried ingest is exactly-once

The attempts of the two writes of one message, in any order and number, each of
which rolls back, commits, or commits and reports an error. Once both writes
have committed, all rows are those of a single successful attempt of each, and
every attempt that reports success reports the same.

A repeated insert of a public event burns a number of the AUTOINCREMENT counter,
so the counter is not that of the single attempts.
-/

namespace CartoLive.Theorems.IngestOnce

open CartoLive.App CartoLive.Go CartoLive.Lib CartoLive.Live CartoLive.Store

section Env

variable [LiveEnv]

/-! ## The system -/

structure Ingest where
  db : IngestDatabase
  /-- What the caller of the upsert got. -/
  observationID : Option Int
  upserted : Bool
  /-- The time of the first commit of the decision. -/
  committed : Option Int
  observationIDs : List Int
  results : List CommitResult

inductive IngestAct
  | upsert (outcome : Outcome)
  | commit (now : Int) (outcome : Outcome)

/-- The upsert as a transaction, whose rows do not depend on the time. -/
def upsertTx (m : Message) (_ : Unit) (db : IngestDatabase) : IngestDatabase × Int × Bool :=
  m.upsert db

/-- The caller's state after an attempt of the upsert. -/
def Ingest.upserts (s : Ingest) (outcome : Outcome)
    (attempted : IngestDatabase × Option (Int × Bool)) : Ingest :=
  { s with
    db := attempted.1
    observationID := (attempted.2.map Prod.fst).or s.observationID
    upserted := s.upserted || outcome.commits
    observationIDs := s.observationIDs ++ (attempted.2.map Prod.fst).toList }

/-- The caller's state after an attempt of the commit. -/
def Ingest.commits (s : Ingest) (now : Int) (outcome : Outcome)
    (attempted : Database × Option CommitResult) : Ingest :=
  { s with
    db := { s.db with toDatabase := attempted.1 }
    committed := s.committed.or (if outcome.commits then some now else none)
    results := s.results ++ attempted.2.toList }

/-- A message with what is decided for an observation identifier. The decision
is committed only after the upsert has reported success. -/
def ingestStep (m : Message) (publicAllowed : Bool) (decide : Int → Decision) (s : Ingest) :
    IngestAct → Option Ingest
  | .upsert outcome => some (s.upserts outcome (attempt (upsertTx m) () outcome s.db))
  | .commit now outcome =>
    s.observationID.map fun id =>
      s.commits now outcome
        (attempt ((decide id).commit m publicAllowed id) now outcome s.db.toDatabase)

def startIngest (db : IngestDatabase) : Ingest :=
  { db, observationID := none, upserted := false, committed := none, observationIDs := []
    results := [] }

def ingest (m : Message) (publicAllowed : Bool) (decide : Int → Decision) (db : IngestDatabase) :
    TSys Ingest IngestAct where
  init s := s = startIngest db
  step := ingestStep m publicAllowed decide

/-- The result of the single successful commit after a single successful upsert. -/
def singleResult (m : Message) (publicAllowed : Bool) (decide : Int → Decision)
    (db : IngestDatabase) (now : Int) : Database × CommitResult :=
  let (db, id, _) := m.upsert db
  (decide id).commit m publicAllowed id now db.toDatabase

/-- The database after a single successful attempt of each write. -/
def single (m : Message) (publicAllowed : Bool) (decide : Int → Decision) (db : IngestDatabase)
    (now : Int) : IngestDatabase :=
  { (m.upsert db).1 with toDatabase := (singleResult m publicAllowed decide db now).1 }

/-! ## The property -/

/-- All rows agree; the counter of `public_events` may differ. -/
structure SameTables (a b : IngestDatabase) : Prop where
  core : Database.SameTables a.toDatabase b.toDatabase
  packets : a.packets = b.packets
  ingestIDs : a.ingestIDs = b.ingestIDs
  observationSequence : a.observationSequence = b.observationSequence

/-- Nothing of the message is stored. -/
structure Unseen (m : Message) (db : IngestDatabase) : Prop where
  observation : db.observationByIngestID m.ingestID = none
  edge : db.edgeByIngestID (m.ingestID ++ ":edge") = none
  events : m.Unused db.publicEvents

/-- `seen_count` of a packet. -/
def seenCount (db : IngestDatabase) (packetHash : String) : Int :=
  ((db.packets.find? fun row => row.parsed.packetHash = packetHash).map Packet.seenCount).getD 0

/-- `packet_count` of an observer in a region. -/
def packetCount (db : IngestDatabase) (publicKey iata : String) : Int :=
  ((db.observers.find? fun row => row.publicKey = publicKey ∧ row.iata = iata).map
    Observer.packetCount).getD 0

/-- What one ingest of a message adds to the tables. -/
structure CountedOnce (m : Message) (decision : Decision) (keys : List String)
    (before after : IngestDatabase) : Prop where
  observation : (after.ingestIDs.filter fun row => row.1 = m.ingestID).length = 1
  seen : seenCount after m.parsed.packetHash = seenCount before m.parsed.packetHash + 1
  packets : packetCount after m.publisherPK m.iata = packetCount before m.publisherPK m.iata + 1
  edge : ∀ event status, decision = .edge event status →
    (after.edges.filter fun row => row.ingestID = m.ingestID ++ ":edge").length = 1
  events : ∀ key ∈ keys,
    (after.publicEvents.rows.filter fun row => row.dedupeKey = key).length = 1
  /-- The activity comes before the route pulse. -/
  order : ∀ activity ∈ after.publicEvents.rows, ∀ pulse ∈ after.publicEvents.rows,
    activity.dedupeKey = m.key ":edge-activity" → pulse.dedupeKey = m.key ":route-pulse" →
    activity.seq < pulse.seq

structure IngestedOnce (m : Message) (publicAllowed : Bool) (decide : Int → Decision)
    (db : IngestDatabase) (s : Ingest) : Prop where
  /-- Every attempt that reports success reports the same. -/
  observationIDs : ∀ a ∈ s.observationIDs, ∀ b ∈ s.observationIDs, a = b
  results : ∀ a ∈ s.results, ∀ b ∈ s.results, a.answer = b.answer
  tables : ∀ now, s.committed = some now → SameTables (single m publicAllowed decide db now) s.db
  counts : ∀ now, s.committed = some now → Unseen m db →
    CountedOnce m (decide (m.upsert db).2.1)
      ((singleResult m publicAllowed decide db now).2.publicEvents.map fun x => x.1.dedupeKey)
      db s.db

/-! ## The invariant -/

/-- After the first commit of the upsert, `id` is the observation. -/
structure Upserted (m : Message) (publicAllowed : Bool) (decide : Int → Decision)
    (db : IngestDatabase) (s : Ingest) : Prop where
  known : s.db.observationByIngestID m.ingestID = some (m.upsert db).2.1
  observationID : ∀ id ∈ s.observationID, id = (m.upsert db).2.1
  observationIDs : ∀ id ∈ s.observationIDs, id = (m.upsert db).2.1
  /-- No attempt of the commit has taken place. -/
  before : s.committed = none → s.db = (m.upsert db).1 ∧ s.results = []
  after : ∀ now, s.committed = some now →
    SameTables (single m publicAllowed decide db now) s.db ∧
      (decide (m.upsert db).2.1).Answered m publicAllowed (m.upsert db).2.1 s.db.toDatabase
        (singleResult m publicAllowed decide db now).2.answer ∧
      ∀ r ∈ s.results, r.answer = (singleResult m publicAllowed decide db now).2.answer

structure IngestInv (m : Message) (publicAllowed : Bool) (decide : Int → Decision)
    (db : IngestDatabase) (s : Ingest) : Prop where
  fresh : s.upserted = false → s = startIngest db
  upserted : s.upserted = true → Upserted m publicAllowed decide db s

variable {m : Message} {publicAllowed : Bool} {decide : Int → Decision} {db : IngestDatabase}
  {s s' : Ingest}

omit [LiveEnv] in
theorem SameTables.refl (db : IngestDatabase) : SameTables db db :=
  ⟨Database.SameTables.refl _, rfl, rfl, rfl⟩

/-- A further attempt of the upsert. -/
theorem Upserted.upsert (h : Upserted m publicAllowed decide db s) (hm : m.ingestID ≠ "")
    (outcome : Outcome) : Upserted m publicAllowed decide db
      (s.upserts outcome (attempt (upsertTx m) () outcome s.db)) := by
  have hretry := IngestDatabase.retryable_upsert (show m.insert.ingestID ≠ "" from hm) m.parsed m.heardAt
  obtain ⟨hsame, hout⟩ := hretry.again () s.db _ h.known
  have hkeep : (attempt (upsertTx m) () outcome s.db).1 = s.db ∧
      ∀ r ∈ (attempt (upsertTx m) () outcome s.db).2, r.1 = (m.upsert db).2.1 := by
    cases outcome with
    | refused => exact ⟨rfl, fun r hr => by cases hr⟩
    | rolledBack => exact ⟨rfl, fun r hr => by cases hr⟩
    | ambiguous => exact ⟨hsame.symm, fun r hr => by cases hr⟩
    | committed => exact ⟨hsame.symm, fun r hr => by cases hr; exact hout⟩
  obtain ⟨hdb, hids⟩ := hkeep
  generalize attempt (upsertTx m) () outcome s.db = attempted at hdb hids
  obtain ⟨db', reported⟩ := attempted
  dsimp only at hdb hids
  subst hdb
  refine
    { known := h.known
      observationID := fun id hid => ?_
      observationIDs := fun id hid => ?_
      before := h.before
      after := h.after }
  · cases reported with
    | none => exact h.observationID id hid
    | some r =>
      cases hid
      exact hids r rfl
  · rcases List.mem_append.mp hid with hid | hid
    · exact h.observationIDs id hid
    · obtain ⟨r, hr, rfl⟩ := Option.map_eq_some_iff.mp (Option.mem_toList.mp hid)
      exact hids r hr

/-- The first commit of the upsert. -/
theorem upserted_of_start (hm : m.ingestID ≠ "") {outcome : Outcome}
    (hcommits : outcome.commits = true) : Upserted m publicAllowed decide db
      ((startIngest db).upserts outcome (attempt (upsertTx m) () outcome db)) := by
  have hknown := IngestDatabase.observationByIngestID_upsert
    (show m.insert.ingestID ≠ "" from hm) db m.parsed m.heardAt
  cases outcome with
  | refused => cases hcommits
  | rolledBack => cases hcommits
  | ambiguous =>
    exact
      { known := hknown
        observationID := fun id hid => by cases hid
        observationIDs := fun id hid => by cases hid
        before := fun _ => ⟨rfl, rfl⟩
        after := fun now hnow => by cases hnow }
  | committed =>
    exact
      { known := hknown
        observationID := fun id hid => by cases hid; rfl
        observationIDs := fun id hid => List.mem_singleton.mp hid
        before := fun _ => ⟨rfl, rfl⟩
        after := fun now hnow => by cases hnow }

/-- The first commit of the decision. -/
theorem Upserted.commit_first (h : Upserted m publicAllowed decide db s)
    (hnone : s.committed = none) (now : Int) {outcome : Outcome} (hcommits : outcome.commits = true) :
    Upserted m publicAllowed decide db
      (s.commits now outcome (attempt ((decide (m.upsert db).2.1).commit m publicAllowed
        (m.upsert db).2.1) now outcome s.db.toDatabase)) := by
  have hretry := retryable_commit (decide (m.upsert db).2.1) m publicAllowed (m.upsert db).2.1
  obtain ⟨hbefore, hempty⟩ := h.before hnone
  obtain ⟨hdb, hreported⟩ := attempt_of_commits
    ((decide (m.upsert db).2.1).commit m publicAllowed (m.upsert db).2.1) hcommits now
    s.db.toDatabase
  have hstate : (decide (m.upsert db).2.1).commit m publicAllowed (m.upsert db).2.1 now
      s.db.toDatabase = singleResult m publicAllowed decide db now := by
    rw [hbefore]
    rfl
  rw [hstate] at hdb hreported
  refine
    { known := h.known
      observationID := h.observationID
      observationIDs := h.observationIDs
      before := fun hfalse => ?_
      after := fun now' hnow' => ?_ }
  · simp [Ingest.commits, hnone, hcommits] at hfalse
  · have hnow : now = now' := by simpa [Ingest.commits, hnone, hcommits] using hnow'
    subst hnow
    refine ⟨?_, ?_, fun r hr => ?_⟩
    · show SameTables _ { s.db with toDatabase := _ }
      rw [hdb, hbefore]
      exact SameTables.refl _
    · show Decision.Answered _ m publicAllowed _ (attempt _ now outcome s.db.toDatabase).1 _
      rw [hdb]
      exact hretry.settles now (m.upsert db).1.toDatabase
    · rw [Ingest.commits, hempty, List.nil_append] at hr
      rcases hreported with hnone | hsome
      · rw [hnone] at hr
        cases hr
      · rw [hsome] at hr
        rw [List.mem_singleton.mp hr]

/-- A commit that finds the answer of the first one. -/
theorem Upserted.commit_again (h : Upserted m publicAllowed decide db s) {first : Int}
    (hfirst : s.committed = some first) (now : Int) {outcome : Outcome}
    (hcommits : outcome.commits = true) :
    Upserted m publicAllowed decide db
      (s.commits now outcome (attempt ((decide (m.upsert db).2.1).commit m publicAllowed
        (m.upsert db).2.1) now outcome s.db.toDatabase)) := by
  have hretry := retryable_commit (decide (m.upsert db).2.1) m publicAllowed (m.upsert db).2.1
  obtain ⟨htables, hanswered, hresults⟩ := h.after _ hfirst
  obtain ⟨hagain, hout⟩ := hretry.again now _ _ hanswered
  obtain ⟨hdb, hreported⟩ := attempt_of_commits
    ((decide (m.upsert db).2.1).commit m publicAllowed (m.upsert db).2.1) hcommits now
    s.db.toDatabase
  refine
    { known := h.known
      observationID := h.observationID
      observationIDs := h.observationIDs
      before := fun hfalse => ?_
      after := fun now' hnow' => ?_ }
  · simp [Ingest.commits, hfirst] at hfalse
  · have hnow : first = now' := by simpa [Ingest.commits, hfirst] using hnow'
    subst hnow
    refine ⟨?_, ?_, fun r hr => ?_⟩
    · refine ⟨?_, htables.packets, htables.ingestIDs, htables.observationSequence⟩
      show Database.SameTables _ (attempt _ now outcome s.db.toDatabase).1
      rw [hdb]
      exact htables.core.trans hagain
    · show Decision.Answered _ m publicAllowed _ (attempt _ now outcome s.db.toDatabase).1 _
      rw [hdb, ← hout]
      exact hretry.settles now s.db.toDatabase
    · rcases List.mem_append.mp hr with hr | hr
      · exact hresults r hr
      · rcases hreported with hnone | hsome
        · rw [hnone] at hr
          cases hr
        · rw [hsome] at hr
          rw [List.mem_singleton.mp hr]
          exact hout

/-- An attempt of the commit. -/
theorem Upserted.commit (h : Upserted m publicAllowed decide db s) {id : Int}
    (hid : s.observationID = some id) (now : Int) (outcome : Outcome) :
    Upserted m publicAllowed decide db
      (s.commits now outcome
        (attempt ((decide id).commit m publicAllowed id) now outcome s.db.toDatabase)) := by
  have hsame := h.observationID id hid
  subst hsame
  cases hcommits : outcome.commits with
  | false =>
    rw [attempt_of_not_commits hcommits]
    have hsame : s.commits now outcome (s.db.toDatabase, none) = s := by
      simp [Ingest.commits, hcommits]
    rw [hsame]
    exact h
  | true =>
    cases hcommitted : s.committed with
    | none => exact h.commit_first hcommitted now hcommits
    | some first => exact h.commit_again hcommitted now hcommits

/-- The run lemma. -/
theorem ingestInv (hm : m.ingestID ≠ "") :
    (ingest m publicAllowed decide db).InductiveOn (fun _ _ => True)
      (IngestInv m publicAllowed decide db) where
  init s hs := by
    subst hs
    exact ⟨fun _ => rfl, fun h => by cases h⟩
  step s act s' h _ hstep := by
    cases hupserted : s.upserted with
    | false =>
      have hstart := h.fresh hupserted
      subst hstart
      cases act with
      | upsert outcome =>
        have hnext := Option.some.inj hstep
        subst hnext
        cases hcommits : outcome.commits with
        | false =>
          have hsame : (startIngest db).upserts outcome
              (attempt (upsertTx m) () outcome (startIngest db).db) = startIngest db := by
            rw [attempt_of_not_commits hcommits]
            simp [Ingest.upserts, startIngest, hcommits]
          rw [hsame]
          exact h
        | true =>
          have hset : ((startIngest db).upserts outcome
              (attempt (upsertTx m) () outcome db)).upserted = true := by
            simp [Ingest.upserts, hcommits]
          exact ⟨fun hfalse => absurd (hset.symm.trans hfalse) (by simp),
            fun _ => upserted_of_start hm hcommits⟩
      | commit now outcome => cases hstep
    | true =>
      have hinv := h.upserted hupserted
      cases act with
      | upsert outcome =>
        have hnext := Option.some.inj hstep
        subst hnext
        have hset : (s.upserts outcome (attempt (upsertTx m) () outcome s.db)).upserted = true := by
          simp [Ingest.upserts, hupserted]
        exact ⟨fun hfalse => absurd (hset.symm.trans hfalse) (by simp),
          fun _ => hinv.upsert hm outcome⟩
      | commit now outcome =>
        obtain ⟨id, hid, rfl⟩ := Option.map_eq_some_iff.mp hstep
        exact ⟨fun hfalse => absurd (hupserted.symm.trans hfalse) (by simp),
          fun _ => hinv.commit hid now outcome⟩

/-! ## Counting -/

omit [LiveEnv] in
/-- The row of a key after an upsert. -/
theorem find?_upsert {α : Type} {p : α → Bool} (update : α → α) (new : α)
    (hupdate : ∀ a, p (update a) = p a) (hnew : p new = true) (rows : List α) :
    ((if rows.any p then rows.map fun a => if p a then update a else a else rows ++ [new]).find?
      p) = some (((rows.find? p).map update).getD new) := by
  cases hfind : rows.find? p with
  | none =>
    have hnone : rows.any p = false := by
      simpa using hfind
    simp [hnone, List.find?_append, hfind, hnew]
  | some row =>
    have hrow := List.find?_some hfind
    have hany : rows.any p = true :=
      List.any_eq_true.mpr ⟨row, List.mem_of_find?_eq_some hfind, hrow⟩
    have hkeep : (p ∘ fun a => if p a then update a else a) = p := by
      funext a
      dsimp only [Function.comp]
      split
      · exact hupdate a
      · rfl
    rw [if_pos hany, List.find?_map, hkeep, hfind]
    simp [hrow]

omit [LiveEnv] in
/-- An upsert of a packet counts it once more. -/
theorem seenCount_upsertPacket (packets : List Packet) (parsed : ParsedPacket) (seenAt : Int) :
    (((IngestDatabase.upsertPacket packets parsed seenAt).find? fun row =>
        row.parsed.packetHash = parsed.packetHash).map Packet.seenCount).getD 0 =
      ((packets.find? fun row => row.parsed.packetHash = parsed.packetHash).map
        Packet.seenCount).getD 0 + 1 := by
  have hfind := find?_upsert (p := fun row : Packet => row.parsed.packetHash = parsed.packetHash)
    (fun row => { row with lastSeen := seenAt, seenCount := row.seenCount + 1 })
    { parsed, firstSeen := seenAt, lastSeen := seenAt, seenCount := 1 } (fun _ => rfl)
    (decide_eq_true rfl) packets
  simp only [decide_eq_true_eq] at hfind
  unfold IngestDatabase.upsertPacket
  rw [hfind]
  cases packets.find? fun row => row.parsed.packetHash = parsed.packetHash <;> rfl

omit [LiveEnv] in
/-- An upsert of an observation counts its observer once more. -/
theorem packetCount_incrementObserverPacket (observers : List Observer)
    (insert : ObservationInsert) :
    (((IngestDatabase.incrementObserverPacket observers insert).find? fun row =>
        row.publicKey = insert.publisherPK ∧ row.iata = insert.iata).map
          Observer.packetCount).getD 0 =
      ((observers.find? fun row =>
        row.publicKey = insert.publisherPK ∧ row.iata = insert.iata).map
          Observer.packetCount).getD 0 + 1 := by
  have hfind := find?_upsert
    (p := fun row : Observer => row.publicKey = insert.publisherPK ∧ row.iata = insert.iata)
    (fun row =>
      { row with
        name := if insert.observerName ≠ "" then insert.observerName else row.name
        lastSeen := insert.heardAt, packetCount := row.packetCount + 1 })
    { publicKey := insert.publisherPK, iata := insert.iata, name := insert.observerName
      latitude := none, longitude := none, lastSeen := insert.heardAt, packetCount := 1 }
    (fun _ => rfl) (decide_eq_true ⟨rfl, rfl⟩) observers
  simp only [decide_eq_true_eq] at hfind
  unfold IngestDatabase.incrementObserverPacket
  rw [hfind]
  cases observers.find? fun row =>
    row.publicKey = insert.publisherPK ∧ row.iata = insert.iata <;> rfl

omit [LiveEnv] in
/-- A row that its table does not have before is there once after it is added. -/
theorem length_filter_append {α : Type} {p : α → Bool} {old : List α} {a : α}
    (hold : old.find? p = none) (ha : p a = true) : ((old ++ [a]).filter p).length = 1 := by
  have hnone : old.filter p = [] :=
    List.filter_eq_nil_iff.mpr fun b hb => List.find?_eq_none.mp hold b hb
  rw [List.filter_append, hnone, List.nil_append, List.filter_cons_of_pos ha]
  rfl

omit [LiveEnv] in
/-- An unused key is on no row. -/
theorem dedupeKey_ne_of_unused {m : Message} {t : PublicEventTable} (h : m.Unused t)
    {suffix : String} (hsuffix : suffix ∈ keySuffixes) {row : PublicEvent} (hrow : row ∈ t.rows) :
    row.dedupeKey ≠ m.key suffix := by
  intro heq
  have hnone := List.find?_eq_none.mp (Option.map_eq_none_iff.mp (h suffix hsuffix)) row hrow
  exact hnone (by simp [heq, key_ne_empty m hsuffix])

omit [LiveEnv] in
/-- The events of a commit with unused keys are stored once each. -/
theorem count_of_commitsNew {d : Decision} {before : Database} {result : Database × CommitResult}
    (h : CommitsNew d m before result) (hunused : m.Unused before.publicEvents) {key : String}
    (hkey : key ∈ result.2.publicEvents.map fun x => x.1.dedupeKey) :
    (result.1.publicEvents.rows.filter fun row => row.dedupeKey = key).length = 1 := by
  obtain ⟨suffix, hsuffix, rfl⟩ := exists_suffix_of_mem_keys (h.keys.subset hkey)
  have hold : (before.publicEvents.rows.filter fun row => row.dedupeKey = m.key suffix) = [] :=
    List.filter_eq_nil_iff.mpr fun row hrow => by
      simpa using dedupeKey_ne_of_unused hunused hsuffix hrow
  have hnodup : ((result.2.publicEvents.map Prod.fst).map PublicEvent.dedupeKey).Nodup := by
    rw [List.map_map]
    exact (nodup_keys d m).sublist h.keys
  have hmem : m.key suffix ∈ (result.2.publicEvents.map Prod.fst).map PublicEvent.dedupeKey := by
    rw [List.map_map]
    exact hkey
  have hcount := List.count_eq_one_of_mem hnodup hmem
  have hpred : ((fun key => key == m.key suffix) ∘ PublicEvent.dedupeKey) =
      fun row : PublicEvent => decide (row.dedupeKey = m.key suffix) :=
    funext fun row => beq_eq_decide row.dedupeKey (m.key suffix)
  rw [List.count, List.countP_map, List.countP_eq_length_filter, hpred] at hcount
  rw [h.rows, List.filter_append, hold, List.nil_append]
  exact hcount

omit [LiveEnv] in
/-- The activity of an edge is stored before its route pulse. -/
theorem order_of_commitsNew {d : Decision} {before : Database} {result : Database × CommitResult}
    (h : CommitsNew d m before result) (hunused : m.Unused before.publicEvents)
    {activity pulse : PublicEvent} (hactivity : activity ∈ result.1.publicEvents.rows)
    (hpulse : pulse ∈ result.1.publicEvents.rows) (hakey : activity.dedupeKey = m.key ":edge-activity")
    (hpkey : pulse.dedupeKey = m.key ":route-pulse") : activity.seq < pulse.seq := by
  have hascending := result.1.publicEvents.ascending
  rw [h.rows] at hactivity hpulse hascending
  have hnew : ∀ {suffix row}, suffix ∈ keySuffixes → row.dedupeKey = m.key suffix →
      row ∈ before.publicEvents.rows ++ result.2.publicEvents.map Prod.fst →
      row ∈ result.2.publicEvents.map Prod.fst := by
    intro suffix row hsuffix hkey hrow
    rcases List.mem_append.mp hrow with hrow | hrow
    · exact absurd hkey (dedupeKey_ne_of_unused hunused hsuffix hrow)
    · exact hrow
  have hactivity := hnew (by decide) hakey hactivity
  have hpulse := hnew (by decide) hpkey hpulse
  have hascending := (List.pairwise_append.mp hascending).2.1
  have hkeys : ((result.2.publicEvents.map Prod.fst).map PublicEvent.dedupeKey).Sublist
      (d.keys m) := by
    rw [List.map_map]
    exact h.keys
  generalize result.2.publicEvents.map Prod.fst = rows at hactivity hpulse hascending hkeys
  -- the keys of the new rows come in the order of the decision's keys
  have hne : m.key ":edge-activity" ≠ m.key ":route-pulse" := by
    intro heq
    have hlists := congrArg String.toList heq
    rw [toList_key m (by decide), toList_key m (by decide)] at hlists
    exact absurd (List.append_cancel_left hlists) (by decide)
  obtain ⟨early, late, rfl⟩ := List.append_of_mem hpulse
  rcases List.mem_append.mp hactivity with hactivity | hactivity
  · exact (List.pairwise_append.mp hascending).2.2 activity hactivity pulse (by simp)
  · exfalso
    rcases List.mem_cons.mp hactivity with rfl | hactivity
    · exact hne (hakey.symm.trans hpkey)
    have hpair : [m.key ":route-pulse", m.key ":edge-activity"].Sublist (d.keys m) := by
      refine List.Sublist.trans ?_ hkeys
      rw [List.map_append, List.map_cons, hpkey]
      refine List.Sublist.trans (List.Sublist.cons_cons _ ?_) (List.sublist_append_right _ _)
      exact List.singleton_sublist.mpr (hakey ▸ List.mem_map_of_mem hactivity)
    cases d with
    | edge event status =>
      have hsame := List.Sublist.eq_of_length hpair (by simp [Decision.keys])
      exact hne (List.cons.inj hsame).1.symm
    | nonEdge observation status location =>
      have hle : 2 ≤ 1 := hpair.length_le
      omega

/-- What a single attempt of each write stores of a new message. -/
theorem countedOnce_single (hm : m.ingestID ≠ "") (hunseen : Unseen m db) (now : Int) :
    CountedOnce m (decide (m.upsert db).2.1)
      ((singleResult m publicAllowed decide db now).2.publicEvents.map fun x => x.1.dedupeKey)
      db (single m publicAllowed decide db now) := by
  -- the upsert adds the observation
  have hobservation := Option.map_eq_none_iff.mp hunseen.observation
  have hupsert : m.upsert db =
      ({ db with
          packets := IngestDatabase.upsertPacket db.packets m.parsed m.heardAt
          observations := db.observations ++
            [IngestDatabase.observationRow (db.observationSequence + 1) m.insert]
          ingestIDs := db.ingestIDs ++ [(m.ingestID, db.observationSequence + 1)]
          observationSequence := db.observationSequence + 1
          observers := IngestDatabase.incrementObserverPacket db.observers m.insert },
        db.observationSequence + 1, false) := by
    unfold Message.upsert IngestDatabase.upsertPacketAndObservation
    rw [show db.observationByIngestID m.insert.ingestID = none from hunseen.observation]
    rfl
  have hevents : (m.upsert db).1.publicEvents = db.publicEvents := by rw [hupsert]
  have hedges : (m.upsert db).1.edges = db.edges := by rw [hupsert]
  -- the commit adds the rest
  have hunused : m.Unused (m.upsert db).1.publicEvents := hevents.symm ▸ hunseen.events
  have hnew := commit_new publicAllowed (m.upsert db).2.1 now
    (hunused.keys (decide (m.upsert db).2.1))
  have hframe : (singleResult m publicAllowed decide db now).1.observers =
      (m.upsert db).1.observers := observers_commit ..
  refine
    { observation := ?_
      seen := ?_
      packets := ?_
      edge := fun event status hdecision => ?_
      events := fun key hkey => ?_
      order := fun activity hactivity pulse hpulse hakey hpkey => ?_ }
  · have hfirst : (db.ingestIDs.find? fun row => row.1 = m.ingestID) = none := by
      refine List.find?_eq_none.mpr fun row hrow => ?_
      have hnot := List.find?_eq_none.mp hobservation row hrow
      intro heq
      have heq : row.1 = m.ingestID := by simpa using heq
      exact hnot (by simp [heq, hm])
    show ((m.upsert db).1.ingestIDs.filter fun row => row.1 = m.ingestID).length = 1
    rw [hupsert]
    exact length_filter_append hfirst (by simp)
  · show seenCount (m.upsert db).1 _ = _
    rw [hupsert]
    exact seenCount_upsertPacket db.packets m.parsed m.heardAt
  · show (((singleResult m publicAllowed decide db now).1.observers.find? _).map _).getD 0 = _
    rw [hframe, hupsert]
    exact packetCount_incrementObserverPacket db.observers m.insert
  · have hfind : ((m.upsert db).1.edges.find? fun row =>
        row.ingestID = m.ingestID ++ ":edge" ∧ row.ingestID ≠ "") = none := by
      rw [hedges]
      exact Option.map_eq_none_iff.mp hunseen.edge
    have hcommit : (singleResult m publicAllowed decide db now).1.edges =
        (Database.insertEdgeEventCoreTx (m.upsert db).1.toDatabase
          (m.edgeRequest publicAllowed event status).edge status).1.edges := by
      show ((decide (m.upsert db).2.1).commit m publicAllowed _ now _).1.edges = _
      rw [hdecision]
      rfl
    show ((singleResult m publicAllowed decide db now).1.edges.filter _).length = 1
    obtain ⟨-, hrows, -⟩ := Database.insertEdgeEventCoreTx_new
      (show ((m.upsert db).1.toDatabase.edges.find? fun row =>
        row.ingestID = (m.edgeRequest publicAllowed event status).edge.ingestID ∧
          row.ingestID ≠ "") = none from hfind) status
    rw [hcommit, hrows]
    refine length_filter_append ?_ (by simp [Message.edgeRequest])
    refine List.find?_eq_none.mpr fun row hrow hsame => ?_
    have hsame : row.ingestID = m.ingestID ++ ":edge" := by simpa using hsame
    exact List.find?_eq_none.mp hfind row hrow (by simp [hsame])
  · exact count_of_commitsNew hnew hunused hkey
  · exact order_of_commitsNew hnew hunused hactivity hpulse hakey hpkey

omit [LiveEnv] in
/-- The counts are about rows. -/
theorem CountedOnce.of_sameTables {decision : Decision} {keys : List String}
    {before a b : IngestDatabase} (h : CountedOnce m decision keys before a)
    (hsame : SameTables a b) : CountedOnce m decision keys before b := by
  have htables := hsame.core.tables
  have hedges : a.edges = b.edges := by rw [← htables]
  have hobservers : a.observers = b.observers := by rw [← htables]
  have hrows := hsame.core.rows
  refine
    { observation := hsame.ingestIDs ▸ h.observation
      seen := ?_
      packets := ?_
      edge := fun event status hdecision => hedges ▸ h.edge event status hdecision
      events := fun key hkey => hrows ▸ h.events key hkey
      order := fun activity hactivity pulse hpulse =>
        h.order activity (hrows.symm ▸ hactivity) pulse (hrows.symm ▸ hpulse) }
  · rw [← h.seen, seenCount, seenCount, hsame.packets]
  · rw [← h.packets, packetCount, packetCount, hobservers]

/-- **Retried ingest is exactly-once**, up to the numbers that repeated inserts
burn. -/
theorem retried_ingest_once (hm : m.ingestID ≠ "")
    (h : (ingest m publicAllowed decide db).Reachable s) :
    IngestedOnce m publicAllowed decide db s := by
  have hinv := (ingestInv hm).invariant h
  cases hupserted : s.upserted with
  | false =>
    have hstart := hinv.fresh hupserted
    subst hstart
    exact
      { observationIDs := fun a ha => by cases ha
        results := fun a ha => by cases ha
        tables := fun now hnow => by cases hnow
        counts := fun now hnow => by cases hnow }
  | true =>
    have hup := hinv.upserted hupserted
    refine
      { observationIDs := fun a ha b hb =>
          (hup.observationIDs a ha).trans (hup.observationIDs b hb).symm
        results := fun a ha b hb => ?_
        tables := fun now hnow => (hup.after now hnow).1
        counts := fun now hnow hunseen =>
          (countedOnce_single hm hunseen now).of_sameTables (hup.after now hnow).1 }
    cases hcommitted : s.committed with
    | none =>
      rw [(hup.before hcommitted).2] at ha
      cases ha
    | some now =>
      obtain ⟨-, -, hresults⟩ := hup.after now hcommitted
      exact (hresults a ha).trans (hresults b hb).symm

end Env

/-! ## Runs -/

section Runs

attribute [local instance] defaultEnv

def sampleParsed : ParsedPacket :=
  { packetHash := "p", rawHex := "", routeType := 1, routeTypeName := "FLOOD", payloadType := 4
    payloadTypeName := "ADVERT", payloadVersion := 0, hashSize := 1, hopCount := 0, pathBytes := []
    payload := [], invalidForMap := false, invalidReason := "" }

def sampleMessage (ingestID : String) : Message :=
  { ingestID, receivedAt := 1000, iata := "YOW", publisherPK := "OBS", observerName := "Observer"
    heardAt := 1000, parsed := sampleParsed, sender := "", text := "" }

def emptyIngestDatabase : IngestDatabase :=
  { emptyDatabase with packets := [], ingestIDs := [], observationSequence := 0 }

/-- Every packet has the edge `sampleEdge`. -/
def decideEdge (observationID : Int) : Decision := .edge { sampleEdge with observationID } "resolved"

/-- Both writes commit and report an error before they report success. -/
def ambiguousWrites : List IngestAct :=
  [.upsert .ambiguous, .upsert .committed, .commit 1000 .rolledBack, .commit 1000 .ambiguous,
    .commit 2000 .committed]

/-- A message whose writes are both retried after their commit. -/
theorem ambiguousWrites_once :
    ∃ s, (ingest (sampleMessage "m") true decideEdge emptyIngestDatabase).Reachable s ∧
      s.committed = some 1000 ∧ s.db.publicEvents.rows.length = 2 ∧
      IngestedOnce (sampleMessage "m") true decideEdge emptyIngestDatabase s := by
  obtain ⟨s, hs, htest⟩ := TSys.exists_reachable_of_run
    (M := ingest (sampleMessage "m") true decideEdge emptyIngestDatabase) ambiguousWrites
    (fun s => decide (s.committed = some 1000 ∧ s.db.publicEvents.rows.length = 2)) rfl
    (by decide +kernel)
  obtain ⟨hcommitted, hrows⟩ := of_decide_eq_true htest
  exact ⟨s, hs, hcommitted, hrows, retried_ingest_once (by decide) hs⟩

/-- The retry of a committed write leaves another counter behind than a single
attempt. -/
theorem retry_burns_sequence :
    ¬ ∀ (m : Message) (publicAllowed : Bool) (decide : Int → Decision) (db : IngestDatabase),
      m.ingestID ≠ "" → ∀ s, (ingest m publicAllowed decide db).Reachable s →
      ∀ now, s.committed = some now → s.db = single m publicAllowed decide db now := by
  intro h
  obtain ⟨s, hs, htest⟩ := TSys.exists_reachable_of_run
    (M := ingest (sampleMessage "m") true decideEdge emptyIngestDatabase) ambiguousWrites
    (fun s => decide (s.committed = some 1000 ∧ s.db.publicEvents.sequence ≠
      (single (sampleMessage "m") true decideEdge emptyIngestDatabase 1000).publicEvents.sequence))
    rfl (by decide +kernel)
  obtain ⟨hcommitted, hne⟩ := of_decide_eq_true htest
  have hsame := h (sampleMessage "m") true decideEdge emptyIngestDatabase (by decide) s hs 1000
    hcommitted
  exact hne (by rw [hsame])

end Runs

end CartoLive.Theorems.IngestOnce
