import CartoLive.Web.LiveMessages

/-!
# What reaches the reducer of the browser

In every run whose flushes leave out no stored event while a recovery is under
way, the reducer has got each stored event between the starting and the applied
cursor once and in order whenever the browser is quiet. A flush that takes a
live event from behind the page of a recovery breaks this: the cursor passes
the events of the page, and the page is then dropped.
-/

namespace CartoLive.Theorems.ExactlyOnce

open CartoLive.Lib CartoLive.Live CartoLive.Store CartoLive.Api CartoLive.Web

/-- The guard of the main result: stored sequences are safe integers, and while
the browser is not idle a flush takes no event from behind one that is missing. -/
def StepOk (sorter : EnvelopeSort) (s : Live) : LiveAct → Prop
  | .commit _ _ => s.table.sequence < maxSafeInteger
  | .flush => s.browser.resetRecoveryActive = true ∨ s.browser.Idle ∨
      FlushSafe sorter s.table.rows s.browser
  | _ => True

instance (sorter : EnvelopeSort) (s : Live) (act : LiveAct) : Decidable (StepOk sorter s act) := by
  cases act <;> (unfold StepOk; infer_instance)

variable {server : Server} {sorter : EnvelopeSort} {s s' : Live} {rows : List PublicEvent}
  {start : Int} {b b' : Browser}

/-! ## A new row -/

section Grow

variable {row : PublicEvent} (hnew : ∀ r ∈ rows, r.seq < row.seq)

include hnew

theorem pageInv_grow {cursor : Int} {response : PublicEventsResponse}
    (h : PageInv rows cursor response) : PageInv (rows ++ [row]) cursor response := by
  refine ⟨h.1, fun hreset => (h.2 hreset).imp_right fun ⟨r, hr, hlt, hevents, hnext⟩ => ?_⟩
  refine ⟨r, List.mem_append_left _ hr, hlt, ?_, hnext⟩
  rw [hevents, between_concat (Or.inr (hnew r hr))]

theorem moves_grow {p q : Int} {message : PublicLiveEnvelope} (h : Moves rows p message q) :
    Moves (rows ++ [row]) p message q := by
  cases h with
  | event r hr htype heq hnext =>
    refine .event r (List.mem_append_left _ hr) htype heq fun r' hr' hlt => ?_
    rcases List.mem_append.mp hr' with hr' | hr'
    · exact hnext r' hr' hlt
    · have := hnew r hr
      rw [List.mem_singleton.mp hr'] at hlt
      omega
  | unsequenced htype hfallback hlatest => exact .unsequenced htype hfallback hlatest
  | pong htype => exact .pong htype
  | hello _ htype hle => exact .hello _ htype hle
  | lagged _ htype hle => exact .lagged _ htype hle

theorem stream_grow {hubSeq p : Int} {messages : List PublicLiveEnvelope}
    (hhub : hubSeq < row.seq) (h : Stream rows hubSeq p messages) :
    Stream (rows ++ [row]) hubSeq p messages := by
  induction messages generalizing p with
  | nil =>
    refine ⟨h.1, fun r hr hle => ?_⟩
    rcases List.mem_append.mp hr with hr | hr
    · exact h.2 r hr hle
    · rw [List.mem_singleton.mp hr] at hle
      omega
  | cons message messages ih =>
    obtain ⟨hp, q, hmoves, hrest⟩ := h
    exact ⟨hp, q, moves_grow hnew hmoves, ih hrest⟩

/-- A new row is beyond everything that the browser knows. -/
theorem browserInv_grow (hpos : 0 < row.seq) (h : BrowserInv rows start b) :
    BrowserInv (rows ++ [row]) start b where
  start_nonneg := h.start_nonneg
  start_le := h.start_le
  cursor_row := h.cursor_row.imp_right fun ⟨r, hr, heq⟩ => ⟨r, List.mem_append_left _ hr, heq⟩
  reduced := by
    rw [h.reduced]
    rcases h.cursor_row with heq | ⟨r, hr, heq⟩
    · rw [heq, between_self (le_refl _), between_self (le_refl _)]
    · rw [between_concat (Or.inr (heq ▸ hnew r hr))]
  genuine m hm := (h.genuine m hm).imp_right fun ⟨r, hr, heq⟩ =>
    ⟨r, List.mem_append_left _ hr, heq⟩
  noGap m hm r hr hlt := by
    rcases List.mem_append.mp hr with hr | hr
    · exact h.noGap m hm r hr hlt
    · rw [List.mem_singleton.mp hr] at hlt
      obtain ⟨r', hr', -, hseq⟩ := (h.genuine m hm).exists_row (by omega)
      have := hnew r' hr'
      omega
  queued r hr hle := by
    rcases List.mem_append.mp hr with hr | hr
    · exact h.queued r hr hle
    · rw [List.mem_singleton.mp hr] at hle ⊢
      rcases h.queued_row with hbehind | ⟨r', hr', hbelow⟩
      · exact Or.inl (hle.trans hbehind)
      · have := hnew r' hr'
        omega
  queued_row := h.queued_row.imp_right fun ⟨r, hr, hle⟩ => ⟨r, List.mem_append_left _ hr, hle⟩
  target_le := h.target_le
  run run hrun := by
    have hold := h.run run hrun
    exact { hold with page := fun response hfetch => pageInv_grow hnew (hold.page response hfetch) }

omit hnew in
theorem coversUpTo_grow {p : Int} (hp : p < row.seq) (h : b.CoversUpTo rows p) :
    b.CoversUpTo (rows ++ [row]) p := by
  intro r hr hle
  rcases List.mem_append.mp hr with hr | hr
  · exact h r hr hle
  · rw [List.mem_singleton.mp hr] at hle
    omega

end Grow

/-! ## The stream -/

theorem stream_le {hubSeq p : Int} {messages : List PublicLiveEnvelope}
    (h : Stream rows hubSeq p messages) : p ≤ hubSeq := by
  cases messages with
  | nil => exact h.1
  | cons message messages => exact h.1

/-- A message at the end of the stream, which the hub moves to its sequence. -/
theorem stream_append {hubSeq hubSeq' p : Int} {messages : List PublicLiveEnvelope}
    {message : PublicLiveEnvelope} (hle : hubSeq ≤ hubSeq')
    (hmove : ∀ q, q ≤ hubSeq → (∀ row ∈ rows, row.seq ≤ hubSeq → row.seq ≤ q) →
      ∃ q', Moves rows q message q' ∧ q' ≤ hubSeq' ∧
        ∀ row ∈ rows, row.seq ≤ hubSeq' → row.seq ≤ q')
    (h : Stream rows hubSeq p messages) : Stream rows hubSeq' p (messages ++ [message]) := by
  induction messages generalizing p with
  | nil =>
    obtain ⟨q', hmoves, hend⟩ := hmove p h.1 h.2
    exact ⟨h.1.trans hle, q', hmoves, hend⟩
  | cons first messages ih =>
    obtain ⟨hp, q, hmoves, hrest⟩ := h
    exact ⟨hp.trans hle, q, hmoves, ih hrest⟩

/-! ## The invariant -/

structure LiveInv (server : Server) (s : Live) : Prop where
  admitted : ∀ row ∈ s.table.rows, server.admits row = true
  safe : s.table.sequence ≤ maxSafeInteger
  hub_nonneg : 0 ≤ s.hubSeq
  hub_le : s.hubSeq ≤ s.table.sequence
  unsent : s.unsent = s.table.rows.filter fun row => s.hubSeq < row.seq
  browser : s.browser.resetRecoveryActive = true ∨ BrowserInv s.table.rows s.start s.browser
  inbox : ∀ messages, s.inbox = some messages → s.browser.resetRecoveryActive = true ∨
    ∃ p, s.browser.CoversUpTo s.table.rows p ∧ Stream s.table.rows s.hubSeq p messages

theorem safeRows {t : PublicEventTable} (h : t.sequence ≤ maxSafeInteger) : SafeRows t.rows where
  ascending := t.ascending
  pos row hrow := (t.bounded row hrow).1
  safe row hrow := (t.bounded row hrow).2.trans h

theorem LiveInv.safeRows (h : LiveInv server s) : SafeRows s.table.rows :=
  ExactlyOnce.safeRows h.safe

/-- A step of the browser alone. -/
theorem LiveInv.of_keeps (h : LiveInv server s)
    (hkeeps : BrowserInv s.table.rows s.start s.browser →
      s.browser.Keeps s.table.rows s.start b')
    (hreset : s.browser.resetRecoveryActive = true → b'.resetRecoveryActive = true) :
    LiveInv server { s with browser := b' } := by
  have hcases : b'.resetRecoveryActive = true ∨ BrowserInv s.table.rows s.start b' ∧
      ∀ row ∈ s.table.rows, s.browser.Covers row.seq → b'.Covers row.seq := by
    rcases h.browser with hb | hb
    · exact Or.inl (hreset hb)
    · exact hkeeps hb
  refine { h with browser := hcases.imp_right And.left, inbox := fun messages hmessages => ?_ }
  rcases h.inbox messages hmessages with hb | ⟨p, hp, hstream⟩
  · exact Or.inl (hreset hb)
  · refine hcases.imp_right fun ⟨_, hcovers⟩ => ⟨p, fun row hrow hle => ?_, hstream⟩
    exact hcovers row hrow (hp row hrow hle)

theorem keeps_backfill (hrows : SafeRows rows) (h : BrowserInv rows start b)
    (latestSeq : Option Int) : b.Keeps rows start (b.backfillOrRefresh latestSeq) :=
  (keeps_backfillOrRefresh hrows h latestSeq).imp_right fun ⟨hinv, hcovers⟩ =>
    ⟨hinv, fun row hrow hc => hcovers row hrow (Or.inl hc)⟩

/-! ## The steps -/

/-- The region test does not read the sequence. -/
theorem admits_seq (server : Server) (event : PublicEvent) (seq : Int) :
    server.admits { event with seq } = server.admits event := rfl

/-- An event behind all others is stored and waits for its broadcast. -/
theorem LiveInv.append (h : LiveInv server s) (hsafe : s.table.sequence < maxSafeInteger)
    {table : PublicEventTable} {row : PublicEvent} (hrows : table.rows = s.table.rows ++ [row])
    (hsequence : table.sequence = s.table.sequence + 1) (hseq : row.seq = s.table.sequence + 1)
    (hadmits : server.admits row = true) :
    LiveInv server { s with table, unsent := s.unsent ++ [row] } := by
  have hhub := h.hub_le
  have hnonneg := s.table.nonneg
  have hnew : ∀ r ∈ s.table.rows, r.seq < row.seq := fun r hr => by
    have := (s.table.bounded r hr).2
    omega
  constructor
  case admitted =>
    intro r hr
    rw [hrows] at hr
    rcases List.mem_append.mp hr with hr | hr
    · exact h.admitted r hr
    · rw [List.mem_singleton.mp hr]
      exact hadmits
  case safe =>
    dsimp only
    omega
  case hub_nonneg => exact h.hub_nonneg
  case hub_le =>
    dsimp only
    omega
  case unsent =>
    have hkept : s.hubSeq < row.seq := by omega
    simp only [hrows, List.filter_append, ← h.unsent]
    simp [hkept]
  case browser =>
    simp only [hrows]
    exact h.browser.imp_right (browserInv_grow hnew (by omega))
  case inbox =>
    intro messages hmessages
    simp only [hrows]
    refine (h.inbox messages hmessages).imp_right fun ⟨p, hp, hstream⟩ => ⟨p, ?_, ?_⟩
    · have := stream_le hstream
      exact coversUpTo_grow (by omega) hp
    · exact stream_grow hnew (by omega) hstream

theorem LiveInv.commit (h : LiveInv server s) {now : Int} {event : PublicEvent}
    (hsafe : s.table.sequence < maxSafeInteger)
    (hstep : liveStep server sorter s (.commit now event) = some s') : LiveInv server s' := by
  simp only [liveStep] at hstep
  split at hstep
  · rename_i hadmits
    rcases s.table.insertPublicEventOnceTx_cases now event with ⟨stored, hinsert⟩ | hinsert
    · rw [hinsert] at hstep
      cases hstep
      exact
        { h with
          safe := hsafe
          hub_le := by
            have := h.hub_le
            show s.hubSeq ≤ s.table.sequence + 1
            omega }
    · rw [hinsert] at hstep
      cases hstep
      refine h.append hsafe rfl rfl rfl ?_
      rw [admits_seq]
      exact hadmits
  · cases hstep

theorem durableSequence_omitZero {value : Int} (h : value ≤ maxSafeInteger) :
    durableSequence (omitZero value) = max 0 value := by
  unfold omitZero durableSequence
  split
  · rename_i hzero
    rw [hzero]
    rfl
  · exact finiteSequence_of_safe h

/-- A message goes out, with the hub at a sequence. -/
theorem LiveInv.send (h : LiveInv server s) {hubSeq : Int} {unsent : List PublicEvent}
    {message : PublicLiveEnvelope} (hle : s.hubSeq ≤ hubSeq) (hbound : hubSeq ≤ s.table.sequence)
    (hunsent : unsent = s.table.rows.filter fun row => hubSeq < row.seq)
    (hmove : ∀ q, q ≤ s.hubSeq → (∀ row ∈ s.table.rows, row.seq ≤ s.hubSeq → row.seq ≤ q) →
      ∃ q', Moves s.table.rows q message q' ∧ q' ≤ hubSeq ∧
        ∀ row ∈ s.table.rows, row.seq ≤ hubSeq → row.seq ≤ q') :
    LiveInv server
      { s with hubSeq, unsent, inbox := s.inbox.map fun messages => messages ++ [message] } :=
  { h with
    hub_nonneg := h.hub_nonneg.trans hle
    hub_le := hbound
    unsent := hunsent
    inbox := fun messages hmessages => by
      obtain ⟨messages', hinbox, rfl⟩ := Option.map_eq_some_iff.mp hmessages
      exact (h.inbox messages' hinbox).imp_right fun ⟨p, hp, hstream⟩ =>
        ⟨p, hp, stream_append hle hmove hstream⟩ }

/-- The next stored event goes out, or word of it. -/
theorem LiveInv.sendNext (h : LiveInv server s) {event : PublicEvent} {unsent : List PublicEvent}
    {message : PublicLiveEnvelope} (hnext : s.unsent = event :: unsent)
    (hmove : ∀ q, (∀ r ∈ s.table.rows, r.seq < event.seq → r.seq ≤ q) →
      Moves s.table.rows q message event.seq) :
    LiveInv server
      { s with
        hubSeq := s.hubAfter event
        unsent
        inbox := s.inbox.map fun messages => messages ++ [message] } := by
  obtain ⟨hmem, hlt, hbelow, hrest⟩ :=
    filter_lt_eq_cons s.table.ascending (h.unsent.symm.trans hnext)
  have hpos := h.hub_nonneg
  have hhub : s.hubAfter event = event.seq := by
    unfold Live.hubAfter setLatestSeq
    rw [if_pos (by omega)]
    exact max_eq_right hlt.le
  rw [hhub]
  refine h.send hlt.le (s.table.bounded event hmem).2 hrest fun q _ hq => ?_
  refine ⟨event.seq, hmove q fun r hr hlt => hq r hr (hbelow r hr hlt), le_refl _, ?_⟩
  exact fun _ _ hle => hle

theorem LiveInv.broadcast (h : LiveInv server s) {serverTime : Int}
    (hstep : liveStep server sorter s (.broadcast serverTime) = some s') : LiveInv server s' := by
  simp only [liveStep] at hstep
  cases hunsent : s.unsent with
  | nil =>
    rw [hunsent] at hstep
    cases hstep
  | cons event unsent =>
    rw [hunsent] at hstep
    cases hstep
    refine h.sendNext hunsent fun q hq => ?_
    obtain ⟨hmem, -⟩ := filter_lt_eq_cons s.table.ascending (h.unsent.symm.trans hunsent)
    have hseq : durableSequence (omitZero event.seq) = event.seq := by
      rw [durableSequence_omitZero (h.safeRows.safe event hmem),
        max_eq_right (h.safeRows.pos event hmem).le]
    refine .event event hmem rfl ?_ hq
    simp only [PublicLiveEnvelope.toDurable, eventMessage, durableEvent, hseq]

theorem LiveInv.broadcastLagged (h : LiveInv server s) {seq serverTime : Int}
    (hstep : liveStep server sorter s (.broadcastLagged seq serverTime) = some s') :
    LiveInv server s' := by
  simp only [liveStep] at hstep
  cases hunsent : s.unsent with
  | nil =>
    rw [hunsent] at hstep
    cases hstep
  | cons event unsent =>
    rw [hunsent] at hstep
    cases hstep
    refine h.sendNext hunsent fun q hq => .lagged _ rfl ?_
    obtain ⟨hmem, -⟩ := filter_lt_eq_cons s.table.ascending (h.unsent.symm.trans hunsent)
    show event.seq ≤ durableSequence (omitZero event.seq)
    rw [durableSequence_omitZero (h.safeRows.safe event hmem)]
    exact le_max_right _ _

/-- A message that is not about a stored event. -/
theorem LiveInv.sendOther (h : LiveInv server s) {message : PublicLiveEnvelope}
    (hmove : ∀ q ≤ s.hubSeq, Moves s.table.rows q message q) :
    LiveInv server
      { s with inbox := s.inbox.map fun messages => messages ++ [message] } :=
  h.send (le_refl _) h.hub_le h.unsent fun q hq hend => ⟨q, hmove q hq, hq, hend⟩

theorem LiveInv.broadcastUnsequenced (h : LiveInv server s) {event : String} {data : PublicData}
    {serverTime : Int}
    (hstep : liveStep server sorter s (.broadcastUnsequenced event data serverTime) = some s') :
    LiveInv server s' := by
  cases hstep
  refine h.sendOther fun q hq => .unsequenced rfl rfl ?_
  show q ≤ durableSequence (omitZero s.hubSeq)
  rw [durableSequence_omitZero (h.hub_le.trans h.safe)]
  exact hq.trans (le_max_right _ _)

theorem LiveInv.connect (h : LiveInv server s) {helloSeq : Nat} {serverTime : Int}
    (hstep : liveStep server sorter s (.connect helloSeq serverTime) = some s') :
    LiveInv server s' := by
  simp only [liveStep] at hstep
  split at hstep
  · cases hstep
    refine { h with inbox := fun messages hmessages => ?_ }
    obtain rfl := Option.some.inj hmessages
    refine Or.inr ⟨0, fun row hrow hle => ?_, h.hub_nonneg, s.hubSeq,
      .hello s.hubSeq rfl ?_, le_refl _, fun _ _ hle => hle⟩
    · have := h.safeRows.pos row hrow
      omega
    · show s.hubSeq ≤ max (durableSequence (omitZero s.hubSeq)) _
      rw [durableSequence_omitZero (h.hub_le.trans h.safe)]
      exact (le_max_right _ _).trans (le_max_left _ _)
  · cases hstep

/-- The browser handles the next message of its connection. -/
theorem LiveInv.receive (h : LiveInv server s)
    (hstep : liveStep server sorter s .receive = some s') : LiveInv server s' := by
  simp only [liveStep] at hstep
  split at hstep
  · rename_i message messages hinbox
    cases hstep
    have hhandles : (s.browser.onMessage sorter message).resetRecoveryActive = true ∨
        ∃ q, (BrowserInv s.table.rows s.start (s.browser.onMessage sorter message) ∧
          (s.browser.onMessage sorter message).CoversUpTo s.table.rows q) ∧
            Stream s.table.rows s.hubSeq q messages := by
      cases hreset : s.browser.resetRecoveryActive with
      | true => exact Or.inl (reset_onMessage hreset message)
      | false =>
        have hinv := h.browser.resolve_left (by simp [hreset])
        obtain ⟨p, hp, -, q, hmoves, hrest⟩ :=
          (h.inbox _ hinbox).resolve_left (by simp [hreset])
        exact (handles_onMessage h.safeRows hinv hreset hp hmoves).imp_right
          fun hb => ⟨q, hb, hrest⟩
    refine
      { h with
        browser := hhandles.imp_right fun ⟨_, hb, _⟩ => hb.1
        inbox := fun messages' hmessages => ?_ }
    obtain rfl := Option.some.inj hmessages
    exact hhandles.imp_right fun ⟨q, hb, hrest⟩ => ⟨q, hb.2, hrest⟩
  · cases hstep

/-! ### The handler of the recovery endpoint -/

/-- The handler's answer to a recovery, when all events are for the regions. -/
theorem pageResponse_eq {t : PublicEventTable} {cursor limit : Int} (now : Int)
    (bounds : Int × Int) {x : PublicEvent} (hadmitted : ∀ row ∈ t.rows, server.admits row = true)
    (hx : ((t.rows.filter fun row => cursor < row.seq).take (pageSize limit)).getLast? = some x) :
    let response := pageResponse server now bounds cursor
      (t.listPublicEventsAfter (eventsFilter (recoveryQuery cursor limit)))
    response.events =
        (between PublicEvent.seq cursor x.seq t.rows).map PublicEventTable.scanPublicEvent ∧
      response.nextCursor = publicSeqCursor x.seq := by
  have hmem := List.mem_of_mem_take (List.mem_of_getLast? hx)
  have hpos := (t.bounded x (List.mem_of_mem_filter hmem)).1
  have htake : (rowsAfter t cursor).take (pageSize limit) =
      (between PublicEvent.seq cursor x.seq t.rows).map PublicEventTable.scanPublicEvent := by
    rw [rowsAfter, ← List.map_take, take_eq_between t.ascending hx]
  have hlast : ((rowsAfter t cursor).take (pageSize limit)).getLast? =
      some (PublicEventTable.scanPublicEvent x) := by
    rw [rowsAfter, ← List.map_take, List.getLast?_map, hx]
    rfl
  have hall : filterPublicEvents server ((rowsAfter t cursor).take (pageSize limit)) =
      (rowsAfter t cursor).take (pageSize limit) := by
    refine List.filter_eq_self.mpr fun event hevent => ?_
    obtain ⟨row, hrow, rfl⟩ := List.mem_map.mp (List.mem_of_mem_take hevent)
    exact hadmitted row (List.mem_of_mem_filter hrow)
  simp only [pageResponse, listPublicEventsAfter_page, hall, hlast, Option.map_some,
    Option.getD_some, PublicEventTable.seq_scanPublicEvent]
  refine ⟨htake, congrArg publicSeqCursor ?_⟩
  split <;> simp

/-- What the handler's reads give is the next stretch of the stream. -/
theorem pageInv_publicEvents {t : PublicEventTable}
    (hadmitted : ∀ row ∈ t.rows, server.admits row = true) {now cursor limit : Int}
    {bounds : Int × Int} (hbounds : bounds.2 ≤ maxSafeInteger) {response : PublicEventsResponse}
    (h : publicEvents server now (recoveryQuery cursor limit) bounds t = .ok response) :
    response.latestSeq = bounds.2 ∧ PageInv t.rows cursor response := by
  have hlatest : response.latestSeq = bounds.2 := by
    unfold publicEvents at h
    dsimp only at h
    split at h
    · cases h
    · split at h <;> (cases h; rfl)
  refine ⟨hlatest, hlatest ▸ hbounds, fun hreset => ?_⟩
  obtain ⟨-, rfl⟩ := publicEvents_no_reset h hreset
  cases hlast : ((t.rows.filter fun row => cursor < row.seq).take (pageSize limit)).getLast? with
  | none =>
    have hnil := List.getLast?_eq_none_iff.mp hlast
    refine Or.inl (List.filter_eq_nil_iff.mpr fun event hevent => ?_)
    rw [listPublicEventsAfter_page, rowsAfter, ← List.map_take, hnil] at hevent
    cases hevent
  | some x =>
    obtain ⟨hevents, hnext⟩ := pageResponse_eq now bounds hadmitted hlast
    obtain ⟨hmem, hlt⟩ :=
      List.mem_filter.mp (List.mem_of_mem_take (List.mem_of_getLast? hlast))
    refine Or.inr ⟨x, hmem, of_decide_eq_true hlt, hevents, ?_⟩
    refine (congrArg decimalNumber hnext).trans ?_
    rw [decimalNumber_publicSeqCursor, max_eq_right (t.bounded x hmem).1.le]

/-- A recovery whose request goes on, and accounts for what it did before. -/
theorem keeps_fetch (h : BrowserInv rows start b) {requestedTarget : Option Int}
    {loop : RecoveryState} {fetch fetch' : Fetch}
    (hrun : b.recovery = some { requestedTarget, loop, fetch })
    (hbounds : ∀ bounds, fetch' = .bounds bounds → bounds.2 ≤ maxSafeInteger)
    (hpage : ∀ response, fetch' = .answered response → PageInv rows loop.cursor response)
    (hcovers : ∀ row ∈ rows, RecoveryRun.Covers { requestedTarget, loop, fetch } row.seq →
      RecoveryRun.Covers { requestedTarget, loop, fetch := fetch' } row.seq) :
    b.Keeps rows start
      { b with recovery := some { requestedTarget, loop, fetch := fetch' } } := by
  refine h.keep (fun m hm => hm) (fun row hrow hc => ?_) rfl rfl (Or.inl rfl) h.target_le
    fun run hr => ?_
  · rcases hc with hc | hc | ⟨run, hr, hc⟩ | hc
    · exact Or.inl hc
    · exact Or.inr (Or.inl hc)
    · rw [hrun] at hr
      cases hr
      exact Or.inr (Or.inr (Or.inl ⟨_, rfl, hcovers row hrow hc⟩))
    · exact Or.inr (Or.inr (Or.inr hc))
  · obtain rfl := Option.some.inj hr
    have hold := h.run _ hrun
    exact { hold with bounds := hbounds, page := hpage }

theorem LiveInv.readBounds (h : LiveInv server s)
    (hstep : liveStep server sorter s .readBounds = some s') : LiveInv server s' := by
  simp only [liveStep] at hstep
  split at hstep
  · rename_i requestedTarget loop hrun
    cases hstep
    refine h.of_keeps (fun hb => keeps_fetch hb hrun (fun bounds hbounds => ?_)
      (fun response hresponse => by cases hresponse) fun row hrow hc => ⟨hc.1, ?_⟩) fun hb => hb
    · obtain rfl := Fetch.bounds.inj hbounds
      exact s.table.latestPublicSeq_le_sequence.trans h.safe
    · exact PublicEventTable.seq_le_latestPublicSeq hrow
  · cases hstep

theorem LiveInv.readPage (h : LiveInv server s) {now : Int}
    (hstep : liveStep server sorter s (.readPage now) = some s') : LiveInv server s' := by
  simp only [liveStep] at hstep
  split at hstep
  · rename_i requestedTarget loop bounds hrun
    split at hstep
    · rename_i response hresponse
      cases hstep
      refine h.of_keeps (fun hb => ?_) fun hb => hb
      obtain ⟨hlatest, hpage⟩ :=
        pageInv_publicEvents h.admitted ((hb.run _ hrun).bounds _ rfl) hresponse
      refine keeps_fetch hb hrun (fun bounds hbounds => by cases hbounds)
        (fun response' hresponse' => ?_) fun row hrow hc => ⟨hc.1, ?_⟩
      · obtain rfl := Fetch.answered.inj hresponse'
        exact hpage
      · have hseen : row.seq ≤ bounds.2 := hc.2
        show row.seq ≤ response.latestSeq
        omega
    · cases hstep
  · cases hstep

/-! ## The run -/

/-- The step lemma. -/
theorem LiveInv.step (h : LiveInv server s) {act : LiveAct} (hok : StepOk sorter s act)
    (hstep : liveStep server sorter s act = some s') : LiveInv server s' := by
  cases act with
  | commit now event => exact h.commit hok hstep
  | broadcast serverTime => exact h.broadcast hstep
  | broadcastLagged seq serverTime => exact h.broadcastLagged hstep
  | broadcastUnsequenced event data serverTime => exact h.broadcastUnsequenced hstep
  | pong seq serverTime =>
    cases hstep
    exact h.sendOther fun q _ => .pong rfl
  | connect helloSeq serverTime => exact h.connect hstep
  | disconnect =>
    cases hstep
    exact { h with inbox := fun messages hmessages => by cases hmessages }
  | receive => exact h.receive hstep
  | flush =>
    simp only [liveStep] at hstep
    split at hstep
    · cases hstep
      cases hreset : s.browser.resetRecoveryActive with
      | true =>
        exact h.of_keeps (fun _ => Or.inl (reset_flushMessages hreset)) reset_flushMessages
      | false =>
        refine h.of_keeps (fun hb => Or.inr ?_) reset_flushMessages
        refine keeps_flushMessages h.safeRows hb ?_
        rcases hok.resolve_left (by simp [hreset]) with hidle | hsafe
        · exact flushSafe_of_idle h.safeRows hb hidle
        · exact hsafe
    · cases hstep
  | readBounds => exact h.readBounds hstep
  | readPage now => exact h.readPage hstep
  | pageArrives =>
    simp only [liveStep] at hstep
    split at hstep
    · rename_i hrun
      cases hstep
      exact h.of_keeps (fun hb => keeps_pageArrives h.safeRows hb hrun rfl)
        fun hb => reset_pageArrives hb _ _
    · cases hstep
  | fetchFails =>
    obtain ⟨run, hrun, rfl⟩ := Option.map_eq_some_iff.mp hstep
    exact h.of_keeps (fun hb => keeps_fetchFails hb hrun) fun hb => reset_fetchFails hb run
  | retry =>
    simp only [liveStep] at hstep
    split at hstep
    · cases hstep
      refine h.of_keeps (fun hb => ?_) fun hb => reset_backfillOrRefresh (by exact hb) _
      have hb' : BrowserInv s.table.rows s.start
          { s.browser with recoveryRetryTimer := false } := { hb with genuine := hb.genuine }
      exact keeps_backfill h.safeRows hb' _
    · cases hstep
  | poll =>
    cases hstep
    exact h.of_keeps (fun hb => keeps_backfill h.safeRows hb none)
      fun hb => reset_backfillOrRefresh hb none

/-- The run lemma. -/
theorem liveInv (server : Server) (sorter : EnvelopeSort) :
    (live server sorter).InductiveOn (StepOk sorter) (LiveInv server) where
  init s hs := by
    obtain ⟨hadmitted, hsafe, hnonneg, hle, hunsent, hinbox, hstart, hbrowser⟩ := hs
    refine
      { admitted := hadmitted, safe := hsafe, hub_nonneg := hnonneg, hub_le := hle
        unsent := hunsent
        browser := Or.inr ?_
        inbox := fun messages hmessages => by simp [hinbox] at hmessages }
    rw [hbrowser]
    exact
      { start_nonneg := hstart, start_le := le_refl _, cursor_row := Or.inl rfl
        reduced := by simp [freshBrowser, between_self]
        genuine := by simp [freshBrowser], noGap := by simp [freshBrowser]
        queued := fun _ _ hle => Or.inl hle, queued_row := Or.inl (le_refl _)
        target_le := Int.natCast_nonneg _, run := by simp [freshBrowser] }
  step _ _ _ h hok hstep := h.step hok hstep

/-- What the claim asks of a quiet browser: each stored event between the
starting and the applied cursor reached the reducer once, and in order. -/
def ExactlyOnceInOrder (s : Live) : Prop :=
  s.browser.reduced =
    (between PublicEvent.seq s.start s.browser.lastAppliedEventSeq s.table.rows).map durableEvent ∧
  s.browser.reduced.Pairwise fun x y => x.seq < y.seq

instance (s : Live) : Decidable (ExactlyOnceInOrder s) := by
  unfold ExactlyOnceInOrder
  infer_instance

/-- **Exactly once, in order.** In every run whose steps meet the guard, a quiet
browser has given the reducer the stored events from its starting cursor to its
applied one, each once and in increasing order. -/
theorem reduced_exactly_once (server : Server) (sorter : EnvelopeSort) {s : Live}
    (hs : (live server sorter).ReachOn (StepOk sorter) s) (hquiet : s.browser.Quiescent) :
    ExactlyOnceInOrder s := by
  have h := (liveInv server sorter).invariant hs
  have hinv := h.browser.resolve_left (by simp [hquiet.2.2.2])
  refine ⟨hinv.reduced, ?_⟩
  rw [hinv.reduced]
  exact List.pairwise_map.mpr (s.table.ascending.filter _)

/-! ## Runs -/

section Runs

theorem orderedInsert_sorted {m : PublicLiveEnvelope} {l : List PublicLiveEnvelope}
    (hc : Consistent compareLiveEnvelopes (m :: l))
    (h : l.Pairwise fun a b => compareLiveEnvelopes a b ≤ 0) :
    (l.orderedInsert (fun a b => compareLiveEnvelopes a b ≤ 0) m).Pairwise
      fun a b => compareLiveEnvelopes a b ≤ 0 := by
  induction l with
  | nil => exact List.pairwise_singleton ..
  | cons x l ih =>
    obtain ⟨hx, hl⟩ := List.pairwise_cons.mp h
    rw [List.orderedInsert_cons]
    split
    · rename_i hle
      refine List.pairwise_cons.mpr ⟨fun y hy => ?_, h⟩
      rcases List.mem_cons.mp hy with rfl | hy
      · exact hle
      · exact hc.trans m (by simp) x (by simp) y (by simp [hy]) hle (hx y hy)
    · rename_i hgt
      have hc' : Consistent compareLiveEnvelopes (m :: l) :=
        { total := fun a ha b hb => hc.total a (by simp_all; tauto) b (by simp_all; tauto)
          trans := fun a ha b hb c hcmem =>
            hc.trans a (by simp_all; tauto) b (by simp_all; tauto) c (by simp_all; tauto) }
      refine List.pairwise_cons.mpr ⟨fun y hy => ?_, ih hc' hl⟩
      rcases List.mem_orderedInsert _ |>.mp hy with rfl | hy
      · exact (hc.total y (by simp) x (by simp)).resolve_left hgt
      · exact hx y hy

/-- An engine that sorts by insertion. -/
def insertionEngine : EnvelopeSort where
  sort l := l.insertionSort fun a b => compareLiveEnvelopes a b ≤ 0
  perm l := List.perm_insertionSort _ l
  sorted l hc := by
    induction l with
    | nil => exact .nil
    | cons m l ih =>
      have hc' : Consistent compareLiveEnvelopes l :=
        { total := fun a ha b hb => hc.total a (by simp [ha]) b (by simp [hb])
          trans := fun a ha b hb c hcmem =>
            hc.trans a (by simp [ha]) b (by simp [hb]) c (by simp [hcmem]) }
      refine orderedInsert_sorted ?_ (ih hc')
      have hmem : ∀ x ∈ m :: l.insertionSort (fun a b => compareLiveEnvelopes a b ≤ 0),
          x ∈ m :: l := fun x hx => by
        rcases List.mem_cons.mp hx with rfl | hx
        · simp
        · simp [(List.perm_insertionSort _ l).mem_iff.mp hx]
      exact
        { total := fun a ha b hb => hc.total a (hmem a ha) b (hmem b hb)
          trans := fun a ha b hb c hcmem =>
            hc.trans a (hmem a ha) b (hmem b hb) c (hmem c hcmem) }

def openServer : Server := { publicEventsEnabled := true, publicAllowsIATA := none }

/-- One stored event, which the browser's snapshot has. -/
def firstApplied : Live :=
  { table := PublicEventTable.empty.append (.sample "YOW" 1), hubSeq := 1, unsent := []
    inbox := none, start := 1, browser := freshBrowser 1 1 1 }

theorem firstApplied_init : (live openServer insertionEngine).init firstApplied := by
  refine ⟨fun row _ => rfl, by decide, by decide, by decide, rfl, rfl, by decide, rfl⟩

/-- A stored event. -/
def commitOne : LiveAct := .commit 1 (.sample "YOW" 1)

/-- Two events are stored before the connection, and a third comes live while
the page with the first two is fetched; the frame runs after the page. -/
def pageBeforeFrame : List LiveAct :=
  [commitOne, .broadcast 1, commitOne, .broadcast 1, .connect 0 1, .receive, commitOne,
    .broadcast 1, .receive, .readBounds, .readPage 1, .pageArrives, .flush, commitOne,
    .broadcast 1, .receive, .flush]

/-- The guarded run. -/
theorem pageBeforeFrame_reduces :
    ∃ s, (live openServer insertionEngine).ReachOn (StepOk insertionEngine) s ∧
      s.browser.Quiescent ∧ s.browser.reduced.map DurableEvent.seq = [2, 3, 4, 5] ∧
      ExactlyOnceInOrder s := by
  obtain ⟨s, hs, htest⟩ := TSys.exists_reachOn_of_runOn (StepOk insertionEngine)
    pageBeforeFrame
    (fun s : Live => decide (s.browser.Quiescent ∧ s.browser.reduced.map DurableEvent.seq = [2, 3, 4, 5]))
    firstApplied_init (by decide +kernel)
  obtain ⟨hquiet, hreduced⟩ := of_decide_eq_true htest
  exact ⟨s, hs, hquiet, hreduced, reduced_exactly_once openServer insertionEngine hs hquiet⟩

/-- The frame runs while the page is on its way: the cursor passes its events. -/
def frameBeforePage : List LiveAct :=
  [commitOne, .broadcast 1, commitOne, .broadcast 1, .connect 0 1, .receive, commitOne,
    .broadcast 1, .receive, .flush, .readBounds, .readPage 1, .pageArrives]

/-- Without the guard a quiet browser can have lost stored events. -/
theorem events_lost_behind_flush :
    ¬ ∀ (server : Server) (sorter : EnvelopeSort) (s : Live),
      (live server sorter).Reachable s → s.browser.Quiescent → ExactlyOnceInOrder s := by
  intro h
  obtain ⟨s, hs, htest⟩ := TSys.exists_reachable_of_run frameBeforePage
    (fun s : Live => decide (s.browser.Quiescent ∧ ¬ ExactlyOnceInOrder s))
    firstApplied_init (by decide +kernel)
  obtain ⟨hquiet, hlost⟩ := of_decide_eq_true htest
  exact hlost (h openServer insertionEngine s hs hquiet)

end Runs

end CartoLive.Theorems.ExactlyOnce
