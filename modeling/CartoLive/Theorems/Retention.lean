import CartoLive.Lib.TSys
import CartoLive.Api.PublicEvents

/-!
# Recovery under retention

Inserts, retention deletes and recovery requests, in any order; between the two
reads of one request other transactions may run. Retention deletes by the time
an event occurred, so it can leave holes inside the retained range, which the
event contract allows; a request is told to reset only below the lowest retained
sequence.

Two ghosts account for every event: `inserted` lists what was ever stored and
`deleted` the sequences that retention took.
-/

namespace CartoLive.Theorems.Retention

open CartoLive.Lib CartoLive.Live CartoLive.Store CartoLive.Api

/-! ## The machine -/

/-- A request whose handler has read the sequence bounds. -/
structure EventsRequest where
  afterSeq : Int
  limit : Int
  bounds : Int × Int
  /-- What retention had deleted when the bounds were read. -/
  deletedAtBounds : List Int

/-- A request that has been answered. -/
structure EventsAnswer where
  afterSeq : Int
  response : PublicEventsResponse
  /-- The page query found no row beyond the page. -/
  lastPage : Bool
  deletedAtBounds : List Int
  /-- What retention had deleted when the page was read. -/
  deletedAtPage : List Int

structure StreamState where
  table : PublicEventTable
  inserted : List PublicEvent
  deleted : List Int
  requests : List EventsRequest
  answers : List EventsAnswer

inductive StreamAct
  /-- One transaction of `InsertPublicEventsOnce`. -/
  | insert (now : Int) (events : List PublicEvent)
  /-- One batch of `RetentionPruner.Step` on `public_events`. -/
  | prune (beforeMs : Int) (victims : List Int)
  /-- A request arrives and its handler reads `PublicSeqBounds`. -/
  | readBounds (afterSeq limit : Int)
  /-- The handler of the request reads its page, if it needs one, and answers. -/
  | respond (now : Int) (i : Nat)

/-- The handler's answer to a request, with the page it reads from the table. -/
def answer (server : Server) (now : Int) (s : StreamState) (r : EventsRequest) :
    Option EventsAnswer :=
  let query := recoveryQuery r.afterSeq r.limit
  (publicEvents server now query r.bounds s.table).toOption.map fun response =>
    { afterSeq := r.afterSeq
      response := response
      lastPage := (s.table.listPublicEventsAfter (eventsFilter query)).2 = 0
      deletedAtBounds := r.deletedAtBounds
      deletedAtPage := s.deleted }

def streamStep (server : Server) (s : StreamState) : StreamAct → Option StreamState
  | .insert now events =>
    let (table, stored) := s.table.insertPublicEventsOnce now events
    some { s with table, inserted := s.inserted ++ PublicEventTable.createdRows stored }
  | .prune beforeMs victims =>
    if s.table.Prunable beforeMs victims then
      some { s with table := s.table.prune victims, deleted := s.deleted ++ victims }
    else none
  | .readBounds afterSeq limit =>
    let bounds := s.table.publicSeqBounds
    some { s with
      requests := s.requests ++ [{ afterSeq, limit, bounds, deletedAtBounds := s.deleted }] }
  | .respond now i => s.requests[i]?.map fun r =>
    { s with
      requests := s.requests.eraseIdx i
      answers := s.answers ++ (answer server now s r).toList }

def emptyStream : StreamState :=
  { table := .empty, inserted := [], deleted := [], requests := [], answers := [] }

/-- The event store and its requests, from an empty store. -/
def stream (server : Server) : TSys StreamState StreamAct where
  init s := s = emptyStream
  step := streamStep server

/-! ## What an answer covers -/

/-- The sequences that an answer speaks for: up to the last event of its page,
and up to the reported latest sequence when the page is the last. -/
def EventsAnswer.Covers (a : EventsAnswer) (seq : Int) : Prop :=
  a.afterSeq < seq ∧
    ((∃ event ∈ a.response.events, seq ≤ event.seq) ∨
      a.lastPage = true ∧ seq ≤ a.response.latestSeq)

/-- An answer without reset leaves out only what retention had deleted. -/
def EventsAnswer.Accounts (a : EventsAnswer) (server : Server) (inserted : List PublicEvent) :
    Prop :=
  ∀ event ∈ inserted, a.Covers event.seq → server.admits event = true →
    PublicEventTable.scanPublicEvent event ∈ a.response.events ∨ event.seq ∈ a.deletedAtPage

/-- An answer without reset was given while an event at or before the one after
the cursor was still retained. -/
def EventsAnswer.AboveFloor (a : EventsAnswer) (inserted : List PublicEvent) : Prop :=
  ∃ event ∈ inserted, event.seq = a.response.oldestSeq ∧ event.seq ≤ a.afterSeq + 1 ∧
    event.seq ∉ a.deletedAtBounds

/-! ## The invariant -/

structure AnswerInv (server : Server) (s : StreamState) (a : EventsAnswer) : Prop where
  events_le : ∀ event ∈ a.response.events, event.seq ≤ s.table.sequence
  latest_le : a.response.latestSeq ≤ s.table.sequence
  accounts : a.Accounts server s.inserted
  aboveFloor : a.AboveFloor s.inserted

structure RequestInv (s : StreamState) (r : EventsRequest) : Prop where
  latest_le : r.bounds.2 ≤ s.table.sequence
  oldest : 0 < r.bounds.1 → ∃ event ∈ s.inserted, event.seq = r.bounds.1 ∧
    event.seq ∉ r.deletedAtBounds
  latest_oldest : 0 < r.bounds.2 → 0 < r.bounds.1

structure StreamInv (server : Server) (s : StreamState) : Prop where
  accounted : ∀ event ∈ s.inserted, event ∈ s.table.rows ∨ event.seq ∈ s.deleted
  numbered : ∀ event ∈ s.inserted, event.seq ≤ s.table.sequence
  stored : ∀ row ∈ s.table.rows, row ∈ s.inserted
  kept : ∀ row ∈ s.table.rows, row.seq ∉ s.deleted
  deleted_le : ∀ seq ∈ s.deleted, seq ≤ s.table.sequence
  requests : ∀ r ∈ s.requests, RequestInv s r
  answers : ∀ a ∈ s.answers, a.response.resetRequired = false → AnswerInv server s a

variable {server : Server} {s s' : StreamState}

/-- An answer stays accounted for while the counter grows and new events take
numbers beyond it. -/
theorem AnswerInv.mono {a : EventsAnswer} (h : AnswerInv server s a)
    (hseq : s.table.sequence ≤ s'.table.sequence)
    (hold : ∀ event ∈ s.inserted, event ∈ s'.inserted)
    (hnew : ∀ event ∈ s'.inserted, event ∈ s.inserted ∨ s.table.sequence < event.seq) :
    AnswerInv server s' a where
  events_le event he := Int.le_trans (h.events_le event he) hseq
  latest_le := Int.le_trans h.latest_le hseq
  accounts event he hcovers hadmits := by
    rcases hnew event he with hin | hbeyond
    · exact h.accounts event hin hcovers hadmits
    · rcases hcovers.2 with ⟨shown, hshown, hle⟩ | ⟨-, hle⟩
      · have := h.events_le shown hshown
        omega
      · have := h.latest_le
        omega
  aboveFloor := by
    obtain ⟨event, he, hfloor⟩ := h.aboveFloor
    exact ⟨event, hold event he, hfloor⟩

theorem RequestInv.mono {r : EventsRequest} (h : RequestInv s r)
    (hseq : s.table.sequence ≤ s'.table.sequence)
    (hold : ∀ event ∈ s.inserted, event ∈ s'.inserted) : RequestInv s' r where
  latest_le := Int.le_trans h.latest_le hseq
  oldest hpos := by
    obtain ⟨event, he, hkept⟩ := h.oldest hpos
    exact ⟨event, hold event he, hkept⟩
  latest_oldest := h.latest_oldest

/-! ## The steps -/

theorem StreamInv.insert (h : StreamInv server s) (now : Int) (events : List PublicEvent)
    (hstep : streamStep server s (.insert now events) = some s') : StreamInv server s' := by
  obtain ⟨hrows, hseq, hnew⟩ := s.table.insertPublicEventsOnce_spec now events
  cases hstep
  have hbeyond : ∀ event ∈ s.inserted ++
      PublicEventTable.createdRows (s.table.insertPublicEventsOnce now events).2,
      event ∈ s.inserted ∨ s.table.sequence < event.seq := fun event he =>
    (List.mem_append.mp he).imp_right (hnew event)
  refine
    { accounted := fun event he => ?_
      numbered := fun event he => ?_
      stored := fun row hrow => ?_
      kept := fun row hrow hdel => ?_
      deleted_le := fun seq hdel => Int.le_trans (h.deleted_le seq hdel) hseq
      requests := fun r hr => (h.requests r hr).mono hseq fun event he =>
        List.mem_append_left _ he
      answers := fun a ha hreset => (h.answers a ha hreset).mono hseq
        (fun event he => List.mem_append_left _ he) hbeyond }
  · rcases List.mem_append.mp he with hold | hcreated
    · refine (h.accounted event hold).imp_left fun hrow => ?_
      show event ∈ (s.table.insertPublicEventsOnce now events).1.rows
      rw [hrows]
      exact List.mem_append_left _ hrow
    · refine Or.inl ?_
      show event ∈ (s.table.insertPublicEventsOnce now events).1.rows
      rw [hrows]
      exact List.mem_append_right _ hcreated
  · rcases List.mem_append.mp he with hold | hcreated
    · exact Int.le_trans (h.numbered event hold) hseq
    · have hrow : event ∈ (s.table.insertPublicEventsOnce now events).1.rows := by
        rw [hrows]
        exact List.mem_append_right _ hcreated
      exact ((s.table.insertPublicEventsOnce now events).1.bounded event hrow).2
  · have hrow' : row ∈ (s.table.insertPublicEventsOnce now events).1.rows := hrow
    rw [hrows] at hrow'
    exact (List.mem_append.mp hrow').elim
      (fun hold => List.mem_append_left _ (h.stored row hold)) (List.mem_append_right _)
  · have hrow' : row ∈ (s.table.insertPublicEventsOnce now events).1.rows := hrow
    rw [hrows] at hrow'
    rcases List.mem_append.mp hrow' with hold | hcreated
    · exact h.kept row hold hdel
    · have hlt := hnew row hcreated
      have hle := h.deleted_le row.seq hdel
      omega

theorem StreamInv.prune (h : StreamInv server s) (beforeMs : Int) (victims : List Int)
    (hstep : streamStep server s (.prune beforeMs victims) = some s') : StreamInv server s' := by
  simp only [streamStep] at hstep
  split at hstep
  · rename_i hprunable
    cases hstep
    refine
      { accounted := fun event he => ?_
        numbered := h.numbered
        stored := fun row hrow => h.stored row (List.mem_of_mem_filter hrow)
        kept := fun row hrow hdel => ?_
        deleted_le := fun seq hdel => ?_
        requests := fun r hr => (h.requests r hr).mono (le_refl _) fun event he => he
        answers := fun a ha hreset => (h.answers a ha hreset).mono (le_refl _)
          (fun event he => he) fun event he => Or.inl he }
    · rcases h.accounted event he with hrow | hdel
      · by_cases hv : event.seq ∈ victims
        · exact Or.inr (List.mem_append_right _ hv)
        · exact Or.inl (List.mem_filter.mpr ⟨hrow, decide_eq_true hv⟩)
      · exact Or.inr (List.mem_append_left _ hdel)
    · obtain ⟨hold, hsurvives⟩ := List.mem_filter.mp hrow
      rcases List.mem_append.mp hdel with hdel | hdel
      · exact h.kept row hold hdel
      · exact of_decide_eq_true hsurvives hdel
    · rcases List.mem_append.mp hdel with hdel | hdel
      · exact h.deleted_le seq hdel
      · obtain ⟨row, hrow, rfl, -⟩ := hprunable.2.2 seq hdel
        exact (s.table.bounded row hrow).2
  · cases hstep

theorem StreamInv.readBounds (h : StreamInv server s) (afterSeq limit : Int)
    (hstep : streamStep server s (.readBounds afterSeq limit) = some s') :
    StreamInv server s' := by
  cases hstep
  refine { h with requests := fun r hr => ?_, answers := fun a ha hreset => ?_ }
  · rcases List.mem_append.mp hr with hr | hr
    · exact (h.requests r hr).mono (le_refl _) fun event he => he
    · rw [List.mem_singleton.mp hr]
      refine
        { latest_le := PublicEventTable.latestPublicSeq_le_sequence s.table
          oldest := fun hpos => ?_
          latest_oldest := PublicEventTable.oldest_pos_of_latest_pos }
      obtain ⟨row, hrow, hseq⟩ := PublicEventTable.exists_oldest hpos
      exact ⟨row, h.stored row hrow, hseq, h.kept row hrow⟩
  · exact (h.answers a ha hreset).mono (le_refl _) (fun event he => he) fun event he => Or.inl he

/-- What an answer without reset says: the endpoint is on, the bounds passed the
reset test, and the page is cut from the table as it is now. -/
theorem answer_cases {now : Int} {r : EventsRequest} {a : EventsAnswer}
    (h : answer server now s r = some a) (hreset : a.response.resetRequired = false) :
    resetNeeded r.bounds r.afterSeq = false ∧
      a = { afterSeq := r.afterSeq
            response := pageResponse server now r.bounds r.afterSeq
              (s.table.listPublicEventsAfter (eventsFilter (recoveryQuery r.afterSeq r.limit)))
            lastPage := (s.table.listPublicEventsAfter
              (eventsFilter (recoveryQuery r.afterSeq r.limit))).2 = 0
            deletedAtBounds := r.deletedAtBounds
            deletedAtPage := s.deleted } := by
  obtain ⟨response, hresponse, rfl⟩ := Option.map_eq_some_iff.mp h
  cases hrun : publicEvents server now (recoveryQuery r.afterSeq r.limit) r.bounds s.table with
  | error e =>
    rw [hrun] at hresponse
    cases hresponse
  | ok ok =>
    rw [hrun] at hresponse
    cases hresponse
    obtain ⟨hfloor, hpage⟩ := publicEvents_no_reset hrun hreset
    exact ⟨hfloor, by rw [hpage]; rfl⟩

/-- An answer without reset is accounted for when it is given. -/
theorem StreamInv.answer (h : StreamInv server s) {now : Int} {r : EventsRequest}
    (hr : RequestInv s r) {a : EventsAnswer} (ha : answer server now s r = some a)
    (hreset : a.response.resetRequired = false) : AnswerInv server s a := by
  obtain ⟨hfloor, rfl⟩ := answer_cases ha hreset
  have hshown : ∀ event, event ∈ filterPublicEvents server (s.table.listPublicEventsAfter
      (eventsFilter (recoveryQuery r.afterSeq r.limit))).1 ↔
      event ∈ (rowsAfter s.table r.afterSeq).take (pageSize r.limit) ∧
        server.admits event = true := by
    intro event
    rw [listPublicEventsAfter_page]
    exact List.mem_filter
  refine
    { events_le := fun event he => ?_
      latest_le := hr.latest_le
      accounts := fun event he hcovers hadmits => ?_
      aboveFloor := ?_ }
  · have hrow := List.mem_of_mem_take ((hshown event).mp he).1
    exact Int.le_trans (mem_rowsAfter hrow).2
      (PublicEventTable.latestPublicSeq_le_sequence s.table)
  · refine (h.accounted event he).imp_left fun hrow => ?_
    have hin := scan_mem_rowsAfter hrow hcovers.1
    refine (hshown _).mpr ⟨?_, hadmits⟩
    rcases hcovers.2 with ⟨shown, hpage, hle⟩ | ⟨hlast, -⟩
    · exact mem_page_of_le hin ((hshown shown).mp hpage).1 hle
    · rwa [page_of_no_cursor (of_decide_eq_true hlast)]
  · simp only [resetNeeded, Bool.or_eq_false_iff, Bool.and_eq_false_iff,
      decide_eq_false_iff_not] at hfloor
    have hpos := hr.latest_oldest (by omega)
    obtain ⟨event, he, hseq, hkept⟩ := hr.oldest hpos
    refine ⟨event, he, hseq, ?_, hkept⟩
    show event.seq ≤ r.afterSeq + 1
    omega

theorem StreamInv.respond (h : StreamInv server s) (now : Int) (i : Nat)
    (hstep : streamStep server s (.respond now i) = some s') : StreamInv server s' := by
  obtain ⟨r, hget, rfl⟩ := Option.map_eq_some_iff.mp hstep
  have hr := h.requests r (List.mem_of_getElem? hget)
  refine { h with requests := fun r' hr' => ?_, answers := fun a ha hreset => ?_ }
  · exact (h.requests r' (List.mem_of_mem_eraseIdx hr')).mono (le_refl _) fun event he => he
  · have hmono : AnswerInv server s a := by
      rcases List.mem_append.mp ha with hold | hnew
      · exact h.answers a hold hreset
      · exact h.answer hr (Option.mem_toList.mp hnew) hreset
    exact hmono.mono (le_refl _) (fun event he => he) fun event he => Or.inl he

/-- The run lemma: every reachable state accounts for every event. -/
theorem streamInv (server : Server) : (stream server).InductiveOn (fun _ _ => True)
    (StreamInv server) where
  init s hs := by
    rw [hs]
    constructor <;> simp [emptyStream, PublicEventTable.empty]
  step s act s' h _ hstep := by
    cases act with
    | insert now events => exact h.insert now events hstep
    | prune beforeMs victims => exact h.prune beforeMs victims hstep
    | readBounds afterSeq limit => exact h.readBounds afterSeq limit hstep
    | respond now i => exact h.respond now i hstep

/-! ## The main result -/

/-- **What a page without reset may leave out.** In every run of inserts,
retention deletes and requests, an answer without reset contains every admitted
event that it covers unless retention had deleted it before the page was read;
and it was given while an event at or before the one after the cursor was still
retained, so what is deleted below the lowest retained sequence is never skipped
without a reset. -/
theorem page_accounts_for_every_event (server : Server) {s : StreamState}
    (hs : (stream server).Reachable s) {a : EventsAnswer} (ha : a ∈ s.answers)
    (hreset : a.response.resetRequired = false) :
    a.Accounts server s.inserted ∧ a.AboveFloor s.inserted := by
  have hinv := ((streamInv server).invariant hs).answers a ha hreset
  exact ⟨hinv.accounts, hinv.aboveFloor⟩

/-! ## A run -/

/-- A server without an allow-list. -/
def openServer : Server := { publicEventsEnabled := true, publicAllowsIATA := none }

/-- Three events of which the second occurred first; retention takes it, and a
client at the first asks for the rest. -/
def holeSchedule : List StreamAct :=
  [.insert 1 [.sample "YOW" 10, .sample "YOW" 5, .sample "YOW" 10], .prune 7 [2],
    .readBounds 1 500, .respond 1 0]

instance (a : EventsAnswer) (seq : Int) : Decidable (a.Covers seq) := by
  unfold EventsAnswer.Covers
  infer_instance

/-- The run ends with an answer without reset that leaves out a covered event. -/
theorem holeSchedule_leaves_out :
    ∃ s, (stream openServer).Reachable s ∧ ∃ a ∈ s.answers, a.response.resetRequired = false ∧
      ∃ event ∈ s.inserted, a.Covers event.seq ∧
        PublicEventTable.scanPublicEvent event ∉ a.response.events := by
  obtain ⟨s, hs, htest⟩ := TSys.exists_reachable_of_run (M := stream openServer)
    holeSchedule
    (fun s => decide (∃ a ∈ s.answers, a.response.resetRequired = false ∧
      ∃ event ∈ s.inserted, a.Covers event.seq ∧
        PublicEventTable.scanPublicEvent event ∉ a.response.events)) rfl (by decide +kernel)
  exact ⟨s, hs, of_decide_eq_true htest⟩

/-- Retention can take an event from the middle of the retained range, and no
reset tells the client. -/
theorem deleted_event_skipped_without_reset :
    ¬ ∀ s, (stream openServer).Reachable s → ∀ a ∈ s.answers, a.response.resetRequired = false →
      ∀ event ∈ s.inserted, a.Covers event.seq →
        PublicEventTable.scanPublicEvent event ∈ a.response.events := by
  intro h
  obtain ⟨s, hs, a, ha, hreset, event, he, hcovers, hmissing⟩ := holeSchedule_leaves_out
  exact hmissing (h s hs a ha hreset event he hcovers)

/-- What the main result says of that answer. -/
theorem holeSchedule_accounted :
    ∃ s a, (stream openServer).Reachable s ∧ a ∈ s.answers ∧ a.response.resetRequired = false ∧
      a.Accounts openServer s.inserted ∧ a.AboveFloor s.inserted := by
  obtain ⟨s, hs, a, ha, hreset, -⟩ := holeSchedule_leaves_out
  exact ⟨s, a, hs, ha, hreset, page_accounts_for_every_event openServer hs ha hreset⟩

end CartoLive.Theorems.Retention
