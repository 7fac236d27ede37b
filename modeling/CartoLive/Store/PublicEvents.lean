import CartoLive.Live.Filter

/-!
# The durable public event stream

The `public_events` table of `public_events.go`: an AUTOINCREMENT sequence, an
insert that deduplicates by key, the two reads that the recovery endpoint makes,
and the retention delete of `prune.go`.

A table carries what AUTOINCREMENT promises: its rows are in increasing
sequence order and no row is beyond the counter of `sqlite_sequence`.
-/

namespace CartoLive.Store

open CartoLive.Go CartoLive.Live

/-- The rows of `public_events` with the AUTOINCREMENT counter. -/
structure PublicEventTable where
  rows : List PublicEvent
  sequence : Int
  ascending : rows.Pairwise fun a b => a.seq < b.seq
  bounded : ∀ row ∈ rows, 0 < row.seq ∧ row.seq ≤ sequence
  nonneg : 0 ≤ sequence

namespace PublicEventTable

def empty : PublicEventTable where
  rows := []
  sequence := 0
  ascending := .nil
  bounded := by simp
  nonneg := le_refl 0

/-! ## Inserting -/

/-- `cleanPublicStringList`. -/
def cleanPublicStringList (items : List String) : List String :=
  items.foldl (fun out item =>
    let item := publicDisplayText item 96
    if item = "" ∨ item ∈ out then out else out ++ [item]) []

/-- What `insertPublicEventOnceTx` stores for an event. -/
def normalizeEvent (now : Int) (event : PublicEvent) : PublicEvent :=
  let region := upperTrim event.region
  let iata := upperTrim event.iata
  let region' := if region = "" then iata else region
  { event with
    occurredAt := if event.occurredAt ≤ 0 then now else event.occurredAt
    receivedAt := if event.receivedAt ≤ 0 then now else event.receivedAt
    type := trimSpace event.type
    region := region'
    iata := if iata = "" then region' else iata
    payloadTypeName := upperTrim event.payloadTypeName
    routeIDs := cleanPublicStringList event.routeIDs
    nodeIDs := cleanPublicStringList event.nodeIDs }

/-- A new row takes the next number of the AUTOINCREMENT counter. -/
def append (t : PublicEventTable) (event : PublicEvent) : PublicEventTable where
  rows := t.rows ++ [{ event with seq := t.sequence + 1 }]
  sequence := t.sequence + 1
  ascending := by
    refine List.pairwise_append.mpr ⟨t.ascending, List.pairwise_singleton .., ?_⟩
    intro a ha b hb
    have := (t.bounded a ha).2
    rw [List.mem_singleton.mp hb]
    show a.seq < t.sequence + 1
    omega
  bounded := by
    intro row hrow
    have hn := t.nonneg
    rcases List.mem_append.mp hrow with hold | hnew
    · have := t.bounded row hold
      omega
    · rw [List.mem_singleton.mp hnew]
      show 0 < t.sequence + 1 ∧ t.sequence + 1 ≤ t.sequence + 1
      omega
  nonneg := by
    have := t.nonneg
    omega

/-- A number that the AUTOINCREMENT counter hands out and no row keeps: an
insert that met its dedupe key. -/
def burn (t : PublicEventTable) : PublicEventTable :=
  { t with
    sequence := t.sequence + 1
    bounded := fun row hrow => by
      have := t.bounded row hrow
      omega
    nonneg := by
      have := t.nonneg
      omega }

/-- `insertPublicEventOnceTx`: the stored event and whether this call created
its row. -/
def insertPublicEventOnceTx (t : PublicEventTable) (now : Int) (event : PublicEvent) :
    PublicEventTable × PublicEvent × Bool :=
  let event := normalizeEvent now event
  match t.rows.find? fun row => row.dedupeKey = event.dedupeKey ∧ row.dedupeKey ≠ "" with
  | some row => (t.burn, { event with seq := row.seq }, false)
  | none => (t.append event, { event with seq := t.sequence + 1 }, true)

/-- An insert meets its dedupe key, or appends its event. -/
theorem insertPublicEventOnceTx_cases (t : PublicEventTable) (now : Int) (event : PublicEvent) :
    (∃ stored, t.insertPublicEventOnceTx now event = (t.burn, stored, false)) ∨
      t.insertPublicEventOnceTx now event =
        (t.append (normalizeEvent now event),
          { normalizeEvent now event with seq := t.sequence + 1 }, true) := by
  unfold insertPublicEventOnceTx
  dsimp only
  split
  · exact Or.inl ⟨_, rfl⟩
  · exact Or.inr rfl

/-- `publicEventByDedupeKeySQL`. -/
def seqOf (t : PublicEventTable) (key : String) : Option Int :=
  (t.rows.find? fun row => row.dedupeKey = key ∧ row.dedupeKey ≠ "").map PublicEvent.seq

@[simp] theorem dedupeKey_normalizeEvent (now : Int) (event : PublicEvent) :
    (normalizeEvent now event).dedupeKey = event.dedupeKey := rfl

@[simp] theorem seqOf_burn (t : PublicEventTable) (key : String) :
    t.burn.seqOf key = t.seqOf key := rfl

theorem seqOf_append (t : PublicEventTable) (event : PublicEvent) (key : String) :
    (t.append event).seqOf key =
      (t.seqOf key).or
        (if event.dedupeKey = key ∧ event.dedupeKey ≠ "" then some (t.sequence + 1) else none) := by
  unfold seqOf
  show ((t.rows ++ [_]).find? _).map _ = _
  rw [List.find?_append]
  cases t.rows.find? fun row => row.dedupeKey = key ∧ row.dedupeKey ≠ "" with
  | some row => rfl
  | none =>
    by_cases hkey : event.dedupeKey = key ∧ event.dedupeKey ≠ ""
    · simp only [List.find?_cons, decide_eq_true hkey, if_pos hkey]
      rfl
    · simp only [List.find?_cons, decide_eq_false hkey, List.find?_nil, if_neg hkey]
      rfl

/-- Only added rows with the key give a new key a sequence. -/
theorem seqOf_of_rows {t t' : PublicEventTable} {new : List PublicEvent}
    (h : t'.rows = t.rows ++ new) (key : String) :
    t'.seqOf key = (t.seqOf key).or
      ((new.find? fun row => row.dedupeKey = key ∧ row.dedupeKey ≠ "").map PublicEvent.seq) := by
  unfold seqOf
  rw [h, List.find?_append]
  cases t.rows.find? fun row => row.dedupeKey = key ∧ row.dedupeKey ≠ "" <;> rfl

/-- An insert that meets its dedupe key. -/
theorem insertPublicEventOnceTx_found {t : PublicEventTable} {event : PublicEvent} {seq : Int}
    (h : t.seqOf event.dedupeKey = some seq) (now : Int) :
    t.insertPublicEventOnceTx now event =
      (t.burn, { normalizeEvent now event with seq }, false) := by
  obtain ⟨row, hrow, rfl⟩ := Option.map_eq_some_iff.mp h
  unfold insertPublicEventOnceTx
  dsimp only
  rw [dedupeKey_normalizeEvent, hrow]

/-- An insert whose dedupe key is new. -/
theorem insertPublicEventOnceTx_new {t : PublicEventTable} {event : PublicEvent}
    (h : t.seqOf event.dedupeKey = none) (now : Int) :
    t.insertPublicEventOnceTx now event =
      (t.append (normalizeEvent now event),
        { normalizeEvent now event with seq := t.sequence + 1 }, true) := by
  unfold insertPublicEventOnceTx
  dsimp only
  rw [dedupeKey_normalizeEvent, Option.map_eq_none_iff.mp h]

/-- After an insert its key has the sequence of the stored event. -/
theorem seqOf_insertPublicEventOnceTx {t : PublicEventTable} {event : PublicEvent}
    (hkey : event.dedupeKey ≠ "") (now : Int) :
    (t.insertPublicEventOnceTx now event).1.seqOf event.dedupeKey =
      some (t.insertPublicEventOnceTx now event).2.1.seq := by
  cases hseq : t.seqOf event.dedupeKey with
  | some seq => rw [insertPublicEventOnceTx_found hseq, seqOf_burn, hseq]
  | none =>
    rw [insertPublicEventOnceTx_new hseq, seqOf_append, hseq]
    exact if_pos ⟨rfl, hkey⟩

/-- An insert keeps the sequences of all keys. -/
theorem seqOf_insertPublicEventOnceTx_mono {t : PublicEventTable} {key : String} {seq : Int}
    (h : t.seqOf key = some seq) (now : Int) (event : PublicEvent) :
    (t.insertPublicEventOnceTx now event).1.seqOf key = some seq := by
  cases hseq : t.seqOf event.dedupeKey with
  | some _ => rw [insertPublicEventOnceTx_found hseq, seqOf_burn, h]
  | none => rw [insertPublicEventOnceTx_new hseq, seqOf_append, h]; rfl

/-- `InsertPublicEventsOnce`: the events of one transaction in their order. -/
def insertPublicEventsOnce (t : PublicEventTable) (now : Int) :
    List PublicEvent → PublicEventTable × List (PublicEvent × Bool)
  | [] => (t, [])
  | event :: events =>
    let (t, stored, created) := t.insertPublicEventOnceTx now event
    let (t, rest) := insertPublicEventsOnce t now events
    (t, (stored, created) :: rest)

theorem seqOf_insertPublicEventsOnce_mono {t : PublicEventTable} {key : String} {seq : Int}
    (h : t.seqOf key = some seq) (now : Int) (events : List PublicEvent) :
    (t.insertPublicEventsOnce now events).1.seqOf key = some seq := by
  induction events generalizing t with
  | nil => exact h
  | cons event events ih => exact ih (seqOf_insertPublicEventOnceTx_mono h now event)

/-- After a transaction every key has the sequence of its stored event. -/
theorem seqOf_insertPublicEventsOnce {events : List PublicEvent}
    (hkeys : ∀ event ∈ events, event.dedupeKey ≠ "") (t : PublicEventTable) (now : Int) :
    events.map (fun event => (t.insertPublicEventsOnce now events).1.seqOf event.dedupeKey) =
      (t.insertPublicEventsOnce now events).2.map fun x => some x.1.seq := by
  induction events generalizing t with
  | nil => rfl
  | cons event events ih =>
    have hhead := seqOf_insertPublicEventsOnce_mono
      (seqOf_insertPublicEventOnceTx (t := t) (hkeys event (by simp)) now) now events
    have htail := ih (fun other hother => hkeys other (List.mem_cons_of_mem _ hother))
      (t.insertPublicEventOnceTx now event).1
    exact congrArg₂ List.cons hhead htail

/-- A transaction whose keys are all stored keeps the rows and returns their
sequences. -/
theorem insertPublicEventsOnce_found {t : PublicEventTable} {events : List PublicEvent}
    {seqs : List Int}
    (h : events.map (fun event => t.seqOf event.dedupeKey) = seqs.map some) (now : Int) :
    (t.insertPublicEventsOnce now events).1.rows = t.rows ∧
      (t.insertPublicEventsOnce now events).2.map (fun x => x.1.seq) = seqs := by
  induction events generalizing t seqs with
  | nil =>
    have hnil : seqs = [] := List.map_eq_nil_iff.mp h.symm
    exact ⟨rfl, hnil.symm⟩
  | cons event events ih =>
    cases seqs with
    | nil => cases h
    | cons seq seqs =>
      obtain ⟨hseq, hrest⟩ := List.cons.inj h
      obtain ⟨hrows, hseqs⟩ := ih (t := t.burn) hrest
      unfold insertPublicEventsOnce
      rw [insertPublicEventOnceTx_found hseq]
      exact ⟨hrows, congrArg (List.cons seq) hseqs⟩

/-- The rows that a transaction created. -/
def createdRows (stored : List (PublicEvent × Bool)) : List PublicEvent :=
  (stored.filter Prod.snd).map Prod.fst

/-- A transaction appends the rows it created, all numbered beyond the counter
it started from. -/
theorem insertPublicEventsOnce_spec (t : PublicEventTable) (now : Int)
    (events : List PublicEvent) :
    (t.insertPublicEventsOnce now events).1.rows =
        t.rows ++ createdRows (t.insertPublicEventsOnce now events).2 ∧
      t.sequence ≤ (t.insertPublicEventsOnce now events).1.sequence ∧
      ∀ row ∈ createdRows (t.insertPublicEventsOnce now events).2, t.sequence < row.seq := by
  induction events generalizing t with
  | nil => simp [insertPublicEventsOnce, createdRows]
  | cons event events ih =>
    simp only [insertPublicEventsOnce, insertPublicEventOnceTx]
    split
    · obtain ⟨hrows, hseq, hnew⟩ := ih t.burn
      have hburn : t.burn.sequence = t.sequence + 1 := rfl
      refine ⟨hrows, Int.le_trans (by omega) hseq, fun row hrow => ?_⟩
      have := hnew row hrow
      omega
    · obtain ⟨hrows, hseq, hnew⟩ := ih (t.append (normalizeEvent now event))
      have happend : (t.append (normalizeEvent now event)).sequence = t.sequence + 1 := rfl
      refine ⟨?_, Int.le_trans (by omega) hseq, fun row hrow => ?_⟩
      · rw [hrows]
        simp [append, createdRows]
      · rcases List.mem_cons.mp hrow with rfl | hrow
        · show t.sequence < t.sequence + 1
          omega
        · have := hnew row hrow
          omega

@[simp] theorem data_insertPublicEventOnceTx (t : PublicEventTable) (now : Int)
    (event : PublicEvent) : (t.insertPublicEventOnceTx now event).2.1.data = event.data := by
  unfold insertPublicEventOnceTx
  dsimp only
  split <;> rfl

/-- Storing keeps the data of the events, in their order. -/
theorem data_insertPublicEventsOnce (t : PublicEventTable) (now : Int)
    (events : List PublicEvent) :
    (t.insertPublicEventsOnce now events).2.map (fun x => x.1.data) =
      events.map PublicEvent.data := by
  induction events generalizing t with
  | nil => rfl
  | cons event events ih =>
    simp only [insertPublicEventsOnce, List.map_cons, ih, data_insertPublicEventOnceTx]

/-- Storing keeps the dedupe keys of the events. -/
theorem dedupeKey_insertPublicEventsOnce (t : PublicEventTable) (now : Int)
    (events : List PublicEvent) :
    (t.insertPublicEventsOnce now events).2.map (fun x => x.1.dedupeKey) =
      events.map PublicEvent.dedupeKey := by
  induction events generalizing t with
  | nil => rfl
  | cons event events ih =>
    have hhead : (t.insertPublicEventOnceTx now event).2.1.dedupeKey = event.dedupeKey := by
      unfold insertPublicEventOnceTx
      dsimp only
      split <;> rfl
    simp only [insertPublicEventsOnce, List.map_cons, ih, hhead]

/-- Events with new keys, all different, are all created. -/
theorem insertPublicEventsOnce_new {t : PublicEventTable} {events : List PublicEvent}
    (hnodup : (events.map PublicEvent.dedupeKey).Nodup)
    (hnew : ∀ event ∈ events, t.seqOf event.dedupeKey = none) (now : Int) :
    ∀ x ∈ (t.insertPublicEventsOnce now events).2, x.2 = true := by
  induction events generalizing t with
  | nil => simp [insertPublicEventsOnce]
  | cons event events ih =>
    obtain ⟨hfirst, hrest⟩ := List.nodup_cons.mp hnodup
    have hone := insertPublicEventOnceTx_new (hnew event (by simp)) now
    intro x hx
    unfold insertPublicEventsOnce at hx
    rw [hone] at hx
    rcases List.mem_cons.mp hx with rfl | hx
    · rfl
    · refine ih hrest (fun other hother => ?_) x hx
      have hne : (normalizeEvent now event).dedupeKey ≠ other.dedupeKey := fun heq =>
        hfirst (List.mem_map.mpr ⟨other, hother, heq.symm⟩)
      rw [seqOf_append, hnew other (List.mem_cons_of_mem _ hother), Option.none_or]
      exact if_neg fun heq => hne heq.1

theorem createdRows_of_all {stored : List (PublicEvent × Bool)} (h : ∀ x ∈ stored, x.2 = true) :
    createdRows stored = stored.map Prod.fst := by
  rw [createdRows, List.filter_eq_self.mpr h]

theorem createdRows_of_none {stored : List (PublicEvent × Bool)}
    (h : ∀ x ∈ stored, x.2 = false) : createdRows stored = [] := by
  rw [createdRows, List.filter_eq_nil_iff.mpr fun x hx => by simp [h x hx]]
  rfl

/-- A transaction of events with new keys appends all of them. -/
theorem rows_insertPublicEventsOnce_new {t : PublicEventTable} {events : List PublicEvent}
    (hnodup : (events.map PublicEvent.dedupeKey).Nodup)
    (hnew : ∀ event ∈ events, t.seqOf event.dedupeKey = none) (now : Int) :
    (t.insertPublicEventsOnce now events).1.rows =
      t.rows ++ (t.insertPublicEventsOnce now events).2.map Prod.fst := by
  rw [(insertPublicEventsOnce_spec t now events).1,
    createdRows_of_all (insertPublicEventsOnce_new hnodup hnew now)]

/-- A created row carries the data of one of the events. -/
theorem data_of_mem_createdRows {t : PublicEventTable} {now : Int} {events : List PublicEvent}
    {row : PublicEvent} (h : row ∈ createdRows (t.insertPublicEventsOnce now events).2) :
    row.data ∈ events.map PublicEvent.data := by
  obtain ⟨x, hx, rfl⟩ := List.mem_map.mp h
  rw [← data_insertPublicEventsOnce t now events]
  exact List.mem_map.mpr ⟨x, List.mem_of_mem_filter hx, rfl⟩

/-! ## Reading -/

/-- `PublicSeqBounds`: the lowest and the highest sequence that has a row. -/
def publicSeqBounds (t : PublicEventTable) : Int × Int :=
  match t.rows.head?, t.rows.getLast? with
  | some first, some last => (first.seq, last.seq)
  | _, _ => (0, 0)

/-- `LatestPublicSeq`. -/
def latestPublicSeq (t : PublicEventTable) : Int := t.publicSeqBounds.2

structure PublicEventFilter where
  afterSeq : Int
  since : Int
  until_ : Int
  limit : Int
  region : String
  payloadTypeName : String
  eventType : String
  messageOnly : Bool

/-- The `WHERE` clause of `ListPublicEventsAfter`. -/
def PublicEventFilter.matches (filter : PublicEventFilter) (row : PublicEvent) : Bool :=
  filter.afterSeq < row.seq &&
    (filter.since ≤ 0 || filter.since ≤ row.occurredAt) &&
    (filter.until_ ≤ 0 || row.occurredAt ≤ filter.until_) &&
    (upperTrim filter.region = "" || row.region = upperTrim filter.region) &&
    (upperTrim filter.payloadTypeName = "" ||
      row.payloadTypeName = upperTrim filter.payloadTypeName) &&
    (trimSpace filter.eventType = "" || row.type = trimSpace filter.eventType) &&
    (!filter.messageOnly || row.message)

/-- `scanPublicEvent`: the dedupe key stays in the database. -/
def scanPublicEvent (row : PublicEvent) : PublicEvent := { row with dedupeKey := "" }

@[simp] theorem seq_scanPublicEvent (row : PublicEvent) : (scanPublicEvent row).seq = row.seq :=
  rfl

/-- The page size that `ListPublicEventsAfter` works with. -/
def pageLimit (limit : Int) : Nat := if limit ≤ 0 ∨ 1000 < limit then 500 else limit.toNat

/-- `ListPublicEventsAfter`: one page, and the sequence to continue after when
the query found a row beyond the page. -/
def listPublicEventsAfter (t : PublicEventTable) (filter : PublicEventFilter) :
    List PublicEvent × Int :=
  let limit := pageLimit filter.limit
  let found := ((t.rows.filter filter.matches).take (limit + 1)).map scanPublicEvent
  let events := found.take limit
  (events, if limit < found.length then (events.getLast?.map PublicEvent.seq).getD 0 else 0)

/-! ## Retention -/

/-- `pruneBatchSize`. -/
def pruneBatchSize : Nat := 100

/-- The rows that one `DELETE .. WHERE rowid IN (SELECT .. LIMIT 100)` may take:
all that are older than the cutoff, or a full batch of them, whichever the
database finds first. -/
def Prunable (t : PublicEventTable) (beforeMs : Int) (victims : List Int) : Prop :=
  victims.Nodup ∧
    victims.length =
      min pruneBatchSize (t.rows.filter fun row => row.occurredAt < beforeMs).length ∧
    ∀ seq ∈ victims, ∃ row ∈ t.rows, row.seq = seq ∧ row.occurredAt < beforeMs

instance (t : PublicEventTable) (beforeMs : Int) (victims : List Int) :
    Decidable (t.Prunable beforeMs victims) := by
  unfold Prunable
  infer_instance

/-- The delete of `RetentionPruner.Step` on `public_events`. -/
def prune (t : PublicEventTable) (victims : List Int) : PublicEventTable :=
  { t with
    rows := t.rows.filter fun row => row.seq ∉ victims
    ascending := t.ascending.filter _
    bounded := fun row hrow => t.bounded row (List.mem_of_mem_filter hrow) }

/-! ## Facts about the reads -/

theorem publicSeqBounds_of_rows_eq_nil {t : PublicEventTable} (h : t.rows = []) :
    t.publicSeqBounds = (0, 0) := by
  simp [publicSeqBounds, h]

/-- A table with rows has a lowest sequence, which one of its rows carries. -/
theorem exists_oldest {t : PublicEventTable} (h : 0 < t.publicSeqBounds.1) :
    ∃ row ∈ t.rows, row.seq = t.publicSeqBounds.1 := by
  unfold publicSeqBounds at h ⊢
  split at h
  · rename_i first last hfirst hlast
    exact ⟨first, List.mem_of_head? hfirst, rfl⟩
  · simp at h

/-- When there is a latest sequence there is a lowest one. -/
theorem oldest_pos_of_latest_pos {t : PublicEventTable} (h : 0 < t.publicSeqBounds.2) :
    0 < t.publicSeqBounds.1 := by
  unfold publicSeqBounds at h ⊢
  split at h
  · rename_i first last hfirst hlast
    exact (t.bounded first (List.mem_of_head? hfirst)).1
  · simp at h

theorem latestPublicSeq_eq_getLast {t : PublicEventTable} {row : PublicEvent}
    (h : t.rows.getLast? = some row) : t.latestPublicSeq = row.seq := by
  have hne : t.rows ≠ [] := by rintro hnil; simp [hnil] at h
  obtain ⟨first, rest, hrows⟩ := List.exists_cons_of_ne_nil hne
  simp only [latestPublicSeq, publicSeqBounds, h]
  simp [hrows]

/-- No row is beyond the latest sequence. -/
theorem seq_le_latestPublicSeq {t : PublicEventTable} {row : PublicEvent}
    (h : row ∈ t.rows) : row.seq ≤ t.latestPublicSeq := by
  obtain ⟨last, hlast⟩ : ∃ last, t.rows.getLast? = some last :=
    ⟨_, List.getLast?_eq_some_getLast (List.ne_nil_of_mem h)⟩
  rw [latestPublicSeq_eq_getLast hlast]
  obtain ⟨init, hinit⟩ := List.getLast?_eq_some_iff.mp hlast
  have hasc := t.ascending
  rw [hinit] at hasc h
  rcases List.mem_append.mp h with hmem | hmem
  · have := (List.pairwise_append.mp hasc).2.2 row hmem last (by simp)
    omega
  · rw [List.mem_singleton.mp hmem]

/-- The latest sequence is one that the counter has handed out. -/
theorem latestPublicSeq_le_sequence (t : PublicEventTable) : t.latestPublicSeq ≤ t.sequence := by
  cases hlast : t.rows.getLast? with
  | none =>
    have hnil := List.getLast?_eq_none_iff.mp hlast
    have := t.nonneg
    simp only [latestPublicSeq, publicSeqBounds_of_rows_eq_nil hnil]
    omega
  | some row =>
    rw [latestPublicSeq_eq_getLast hlast]
    exact (t.bounded row (List.mem_of_getLast? hlast)).2

theorem latestPublicSeq_nonneg (t : PublicEventTable) : 0 ≤ t.latestPublicSeq := by
  cases hlast : t.rows.getLast? with
  | none =>
    rw [latestPublicSeq, publicSeqBounds_of_rows_eq_nil (List.getLast?_eq_none_iff.mp hlast)]
  | some row =>
    rw [latestPublicSeq_eq_getLast hlast]
    exact (t.bounded row (List.mem_of_getLast? hlast)).1.le

end PublicEventTable

end CartoLive.Store
