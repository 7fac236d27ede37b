import CartoLive.Web.LiveInvariant

/-!
# What the live messages and the flush keep

A connection carries a stream that moves a position over the stored events
(`Moves`): everything up to the position is accounted for when the message has
been handled (`covered_onMessage`). The flush takes the due envelopes; it keeps
the invariant when the due envelopes leave out no stored event (`FlushSafe`),
which holds on its own while no recovery is under way and no fallback envelope
is pending (`flushSafe_of_idle`).
-/

namespace CartoLive.Web

open CartoLive.Lib CartoLive.Live CartoLive.Store CartoLive.Api

variable {rows : List PublicEvent} {start : Int} {b b' : Browser} {sorter : EnvelopeSort}

/-! ## The stream of a connection -/

/-- What a message says about the stored events behind position `p`: the next
of them, nothing, or that all up to a new position are to be fetched. -/
inductive Moves (rows : List PublicEvent) (p : Int) (message : PublicLiveEnvelope) : Int → Prop
  | event (row : PublicEvent) (hrow : row ∈ rows) (htype : message.type = .event)
      (heq : message.toDurable = durableEvent row)
      (hnext : ∀ r ∈ rows, r.seq < row.seq → r.seq ≤ p) : Moves rows p message row.seq
  | unsequenced (htype : message.type = .event)
      (hfallback : classifyLiveEnvelopeSequence message = .fallback)
      (hlatest : p ≤ durableSequence message.latestSeq) : Moves rows p message p
  | pong (htype : message.type = .pong) : Moves rows p message p
  | hello (position : Int) (htype : message.type = .hello)
      (hle : position ≤ max (durableSequence message.latestSeq) (durableSequence message.seq)) :
      Moves rows p message position
  | lagged (position : Int) (htype : message.type = .lagged)
      (hle : position ≤ durableSequence message.toSeq) : Moves rows p message position

/-- The messages of a connection, from a position to the hub's. -/
def Stream (rows : List PublicEvent) (hubSeq : Int) : Int → List PublicLiveEnvelope → Prop
  | p, [] => p ≤ hubSeq ∧ ∀ row ∈ rows, row.seq ≤ hubSeq → row.seq ≤ p
  | p, message :: messages =>
    p ≤ hubSeq ∧ ∃ q, Moves rows p message q ∧ Stream rows hubSeq q messages

/-- Everything up to a position is accounted for. -/
def Browser.CoversUpTo (rows : List PublicEvent) (b : Browser) (p : Int) : Prop :=
  ∀ row ∈ rows, row.seq ≤ p → b.Covers row.seq

/-- What a handler does for the position after a message, unless it starts a
reset. -/
def Browser.Handles (rows : List PublicEvent) (start : Int) (b : Browser) (p : Int) : Prop :=
  b.resetRecoveryActive = true ∨ BrowserInv rows start b ∧ b.CoversUpTo rows p

/-! ## Queueing a message -/

/-- The queue is asked for again from the server. -/
theorem handles_clearPending_backfill (hrows : SafeRows rows) (h : BrowserInv rows start b)
    {target : Int} (hsafe : target ≤ maxSafeInteger) {p : Int}
    (hp : ∀ row ∈ rows, row.seq ≤ p → row.seq ≤ target) :
    (b.clearPending.backfillOrRefresh (Browser.targetOrPoll target)).Handles rows start p := by
  refine (keeps_backfillOrRefresh hrows (keeps_clearPending h) _).imp_right
    fun ⟨hinv, hcovers⟩ => ⟨hinv, fun row hrow hle => hcovers row hrow (Or.inr ?_)⟩
  rw [durableSequence_targetOrPoll hsafe]
  exact (hp row hrow hle).trans (le_max_right _ _)

theorem capLiveEnvelopeQueue_of_length_eq {messages : List PublicLiveEnvelope}
    (h : (capLiveEnvelopeQueue sorter messages).length = messages.length) :
    capLiveEnvelopeQueue sorter messages = messages := by
  unfold capLiveEnvelopeQueue at h ⊢
  split
  · rfl
  · rename_i hlong
    rw [if_neg hlong, List.length_drop, (sorter.perm messages).length_eq] at h
    have : 0 < liveEnvelopeMaxPending := by decide
    omega

/-- A genuine message joins the queue, or the queue is given up. -/
theorem handles_pushMessage (hrows : SafeRows rows) (h : BrowserInv rows start b)
    {message : PublicLiveEnvelope} (hgenuine : Genuine rows message) {queued target p q : Int}
    (hp : b.CoversUpTo rows p)
    (hbefore : ∀ row ∈ rows, row.seq < durableSequence message.seq → row.seq ≤ p)
    (hq : ∀ row ∈ rows, row.seq ≤ q → row.seq ≤ p ∨ row.seq = durableSequence message.seq)
    (hqueued : queued = b.lastQueuedEventSeq ∨ queued = durableSequence message.seq)
    (hsafe : target ≤ maxSafeInteger) (htarget : ∀ row ∈ rows, row.seq ≤ q → row.seq ≤ target) :
    (b.pushMessage sorter message queued target).Handles rows start q := by
  unfold Browser.pushMessage
  dsimp only
  split
  · exact handles_clearPending_backfill hrows h hsafe htarget
  · rename_i hfits
    push Not at hfits
    rw [capLiveEnvelopeQueue_of_length_eq hfits]
    refine Or.inr ?_
    have hcovers : ∀ seq, b.Covers seq ∨ seq = durableSequence message.seq →
        ({ b with
            pendingMessages := b.pendingMessages ++ [message]
            lastQueuedEventSeq := queued } : Browser).Covers seq := by
      rintro seq ((hc | hc | hc | ⟨m, hm, hseq⟩) | rfl)
      · exact Or.inl hc
      · exact Or.inr (Or.inl hc)
      · exact Or.inr (Or.inr (Or.inl hc))
      · exact Or.inr (Or.inr (Or.inr ⟨m, List.mem_append_left _ hm, hseq⟩))
      · exact Or.inr (Or.inr (Or.inr ⟨message, by simp, rfl⟩))
    have hinv : BrowserInv rows start
        { b with
          pendingMessages := b.pendingMessages ++ [message]
          lastQueuedEventSeq := queued } :=
      { h with
        genuine := fun m hm => by
          rcases List.mem_append.mp hm with hm | hm
          · exact h.genuine m hm
          · rw [List.mem_singleton.mp hm]
            exact hgenuine
        noGap := fun m hm row hrow hlt => by
          refine hcovers _ (Or.inl ?_)
          rcases List.mem_append.mp hm with hm | hm
          · exact h.noGap m hm row hrow hlt
          · rw [List.mem_singleton.mp hm] at hlt
            exact hp row hrow (hbefore row hrow hlt)
        queued := fun row hrow hle => by
          rcases hqueued with rfl | rfl
          · exact hcovers _ (Or.inl (h.queued row hrow hle))
          · rcases lt_or_eq_of_le hle with hlt | heq
            · exact hcovers _ (Or.inl (hp row hrow (hbefore row hrow hlt)))
            · exact hcovers _ (Or.inr heq)
        queued_row := by
          rcases hqueued with rfl | rfl
          · exact h.queued_row
          · rcases lt_or_ge 0 (durableSequence message.seq) with hpos | hneg
            · obtain ⟨row, hrow, -, hseq⟩ := hgenuine.exists_row hpos
              exact Or.inr ⟨row, hrow, hseq.ge⟩
            · exact Or.inl (hneg.trans (h.start_nonneg.trans h.start_le)) }
    obtain ⟨hinv', hkept⟩ := keeps_scheduleMessagesFlush hinv
    refine ⟨hinv', fun row hrow hle => hkept _ (hcovers _ ?_)⟩
    exact (hq row hrow hle).imp_left fun hle => hp row hrow hle

/-- An event message moves the position to its event. -/
theorem handles_enqueueMessage (hrows : SafeRows rows) (h : BrowserInv rows start b)
    (hactive : b.resetRecoveryActive = false) {message : PublicLiveEnvelope} {p q : Int}
    (hp : b.CoversUpTo rows p) (hmoves : Moves rows p message q) (htype : message.type = .event) :
    (b.enqueueMessage sorter message).Handles rows start q := by
  have hsafe : max (durableSequence message.seq) (durableSequence message.latestSeq) ≤
      maxSafeInteger := max_le (durableSequence_le _) (durableSequence_le _)
  unfold Browser.enqueueMessage
  dsimp only
  cases hmoves with
  | event row hrow _ heq hnext =>
    have hseq : durableSequence message.seq = row.seq := congrArg DurableEvent.seq heq
    have hpos := hrows.pos row hrow
    rw [classify_eq_durable_iff.mpr ⟨hseq, hpos⟩]
    dsimp only
    rw [if_neg (by simp [hactive])]
    split
    · refine handles_pushMessage hrows h (Or.inr ⟨row, hrow, heq⟩) hp
        (fun r hr hlt => hnext r hr (by omega)) (fun r hr hle => ?_) (Or.inr hseq.symm) hsafe
        fun r _ hle => ?_
      · rcases lt_or_eq_of_le hle with hlt | heq'
        · exact Or.inl (hnext r hr hlt)
        · exact Or.inr (by omega)
      · exact hle.trans (hseq ▸ le_max_left _ _)
    · -- the event is behind the applied cursor or the last queued envelope
      rename_i hbehind
      refine Or.inr ⟨h, fun r hr hle => ?_⟩
      rcases lt_or_eq_of_le hle with hlt | heq'
      · exact hp r hr (hnext r hr hlt)
      · have hseen : row.seq ≤ max 0 (max b.lastAppliedEventSeq b.lastQueuedEventSeq) := by
          by_contra hlt
          refine hbehind (decide_eq_true ⟨hrows.safe row hrow, ?_⟩)
          omega
        rcases le_max_iff.mp hseen with hle' | hle'
        · omega
        · rcases le_max_iff.mp hle' with hle' | hle'
          · exact Or.inl (by omega)
          · exact h.queued r hr (by omega)
  | unsequenced _ hfallback hlatest =>
    have hzero := durableSequence_of_fallback hfallback
    rw [hfallback]
    refine handles_pushMessage hrows h (Or.inl hfallback) hp (fun r hr hlt => ?_)
      (fun r _ hle => Or.inl hle) (Or.inl rfl) hsafe fun r hr hle => ?_
    · have := hrows.pos r hr
      omega
    · exact (hle.trans hlatest).trans (le_max_right _ _)
  | pong h' => rw [htype] at h'; cases h'
  | hello _ h' => rw [htype] at h'; cases h'
  | lagged _ h' => rw [htype] at h'; cases h'

/-! ## Handling a message -/

/-- The observed sequences do not matter here. -/
theorem BrowserInv.observe (h : BrowserInv rows start b) (type : LiveMessageType)
    (observed : Int) : BrowserInv rows start (b.observe type observed) :=
  { h with genuine := h.genuine }

theorem reset_clearPending (h : b.resetRecoveryActive = true) :
    b.clearPending.resetRecoveryActive = true := h

theorem reset_pushMessage (h : b.resetRecoveryActive = true) (message : PublicLiveEnvelope)
    (queued target : Int) :
    (b.pushMessage sorter message queued target).resetRecoveryActive = true := by
  unfold Browser.pushMessage
  dsimp only
  split
  · exact reset_backfillOrRefresh (reset_clearPending h) _
  · exact reset_scheduleMessagesFlush (by exact h)

theorem reset_onMessage (h : b.resetRecoveryActive = true) (message : PublicLiveEnvelope) :
    (b.onMessage sorter message).resetRecoveryActive = true := by
  unfold Browser.onMessage
  dsimp only
  cases message.type with
  | hello =>
    dsimp only
    split <;> exact reset_backfillOrRefresh (by exact h) _
  | pong => exact h
  | lagged => exact reset_backfillOrRefresh (by exact h) _
  | event =>
    dsimp only
    unfold Browser.enqueueMessage
    dsimp only
    split
    · exact reset_backfillOrRefresh (by exact h) _
    · split
      · exact reset_backfillOrRefresh (by exact h) _
      · split
        · exact reset_pushMessage (by exact h) message _ _
        · exact h
    · exact reset_pushMessage (by exact h) message _ _

/-- A handled message moves the position along the stream. -/
theorem handles_onMessage (hrows : SafeRows rows) (h : BrowserInv rows start b)
    (hactive : b.resetRecoveryActive = false) {message : PublicLiveEnvelope} {p q : Int}
    (hp : b.CoversUpTo rows p) (hmoves : Moves rows p message q) :
    (b.onMessage sorter message).Handles rows start q := by
  unfold Browser.onMessage
  dsimp only
  generalize hobserved : max (durableSequence message.latestSeq) (durableSequence message.seq) =
    observed
  have hsafe : observed ≤ maxSafeInteger :=
    hobserved ▸ max_le (durableSequence_le _) (durableSequence_le _)
  have hnonneg : 0 ≤ observed := hobserved ▸ (durableSequence_nonneg _).trans (le_max_left _ _)
  generalize hb : b.observe message.type observed = seen
  have hinv : BrowserInv rows start seen := hb ▸ h.observe _ _
  have hpseen : seen.CoversUpTo rows p := hb ▸ hp
  have hactive' : seen.resetRecoveryActive = false := hb ▸ hactive
  have happlied : seen.lastAppliedEventSeq = b.lastAppliedEventSeq := hb ▸ rfl
  cases htype : message.type with
  | event => exact handles_enqueueMessage hrows hinv hactive' hpseen hmoves htype
  | pong =>
    cases hmoves with
    | pong => exact Or.inr ⟨hinv, hpseen⟩
    | event _ _ h' => rw [htype] at h'; cases h'
    | unsequenced h' => rw [htype] at h'; cases h'
    | hello _ h' => rw [htype] at h'; cases h'
    | lagged _ h' => rw [htype] at h'; cases h'
  | hello =>
    cases hmoves with
    | hello _ _ hle =>
      rw [hobserved] at hle
      dsimp only
      split
      · -- the applied cursor is beyond what the server has
        rename_i hprobe
        refine (keeps_backfillOrRefresh hrows hinv none).imp_right
          fun ⟨hinv', hcovers⟩ => ⟨hinv', fun row hrow hle' => hcovers row hrow (Or.inl ?_)⟩
        have hlt := (of_decide_eq_true hprobe).2
        rw [finiteSequence_of_safe hsafe, happlied] at hlt
        have hfinite : finiteSequence b.lastAppliedEventSeq ≤ max 0 b.lastAppliedEventSeq := by
          unfold finiteSequence
          split <;> omega
        refine Or.inl ?_
        omega
      · refine (keeps_backfillOrRefresh hrows hinv _).imp_right
          fun ⟨hinv', hcovers⟩ => ⟨hinv', fun row hrow hle' => hcovers row hrow (Or.inr ?_)⟩
        rw [durableSequence_targetOrPoll hsafe]
        omega
    | event _ _ h' => rw [htype] at h'; cases h'
    | unsequenced h' => rw [htype] at h'; cases h'
    | pong h' => rw [htype] at h'; cases h'
    | lagged _ h' => rw [htype] at h'; cases h'
  | lagged =>
    cases hmoves with
    | lagged _ _ hle =>
      have hto := durableSequence_le message.toSeq
      have hinv' : BrowserInv rows start { seen with flushArmed := false } :=
        { hinv with genuine := hinv.genuine }
      refine handles_clearPending_backfill hrows hinv' (max_le hsafe hto) fun row _ hle' => ?_
      exact (hle'.trans hle).trans (le_max_right _ _)
    | event _ _ h' => rw [htype] at h'; cases h'
    | unsequenced h' => rw [htype] at h'; cases h'
    | pong h' => rw [htype] at h'; cases h'
    | hello _ h' => rw [htype] at h'; cases h'

/-! ## The flush -/

/-- The envelopes that the next flush takes. -/
def Browser.due (sorter : EnvelopeSort) (b : Browser) : List PublicLiveEnvelope :=
  (takeDueLiveEnvelopes sorter b.pendingMessages).1

/-- The due envelopes leave out no stored event behind the applied cursor, and
the engine has put the durable ones in order. -/
def FlushSafe (sorter : EnvelopeSort) (rows : List PublicEvent) (b : Browser) : Prop :=
  (∀ row ∈ rows, b.lastAppliedEventSeq < row.seq →
    (∃ m ∈ b.due sorter, row.seq < durableSequence m.seq) →
      ∃ m ∈ b.due sorter, durableSequence m.seq = row.seq) ∧
    (durableMessages (b.due sorter)).Pairwise fun x y =>
      durableSequence x.seq ≤ durableSequence y.seq

instance (sorter : EnvelopeSort) (rows : List PublicEvent) (b : Browser) :
    Decidable (FlushSafe sorter rows b) := by
  unfold FlushSafe
  infer_instance

/-- No recovery is in flight or queued, and no fallback envelope is pending. -/
def Browser.Idle (b : Browser) : Prop :=
  b.recovery.isNone ∧ ¬ b.RecoveryQueued ∧
    ∀ m ∈ b.pendingMessages, classifyLiveEnvelopeSequence m ≠ .fallback

instance (b : Browser) : Decidable b.Idle := by
  unfold Browser.Idle
  infer_instance

theorem mem_pending_of_due {m : PublicLiveEnvelope} (h : m ∈ b.due sorter) :
    m ∈ b.pendingMessages :=
  (mem_takeDueLiveEnvelopes sorter).mpr (Or.inl h)

/-- Pending envelopes that are not fallback ones are durable. -/
theorem BrowserInv.durable_of_not_fallback (hrows : SafeRows rows) (h : BrowserInv rows start b)
    {m : PublicLiveEnvelope} (hm : m ∈ b.pendingMessages)
    (hnot : classifyLiveEnvelopeSequence m ≠ .fallback) : 0 < durableSequence m.seq := by
  rcases h.genuine m hm with hfallback | ⟨row, hrow, heq⟩
  · exact absurd hfallback hnot
  · have hseq : durableSequence m.seq = row.seq := congrArg DurableEvent.seq heq
    have := hrows.pos row hrow
    omega

/-- While the browser is idle every event below a pending envelope is pending,
and the due envelopes are the first ones. -/
theorem flushSafe_of_idle (hrows : SafeRows rows) (h : BrowserInv rows start b) (hidle : b.Idle) :
    FlushSafe sorter rows b := by
  obtain ⟨hnone, hqueued, hfallback⟩ := hidle
  have hpos : ∀ m ∈ b.pendingMessages, 0 < durableSequence m.seq := fun m hm =>
    h.durable_of_not_fallback hrows hm (hfallback m hm)
  have hsorted := sorter.sorted_durable hpos
  refine ⟨fun row hrow hlt ⟨m, hm, hbelow⟩ => ?_, ?_⟩
  · have hcovers := h.noGap m (mem_pending_of_due hm) row hrow hbelow
    rcases hcovers with hc | hc | ⟨run, hrun, -⟩ | ⟨m', hm', hseq⟩
    · omega
    · have : ¬ b.lastAppliedEventSeq < b.queuedRecoveryTarget := fun hlt => hqueued (Or.inr hlt)
      omega
    · rw [Option.isNone_iff_eq_none.mp hnone] at hrun
      cases hrun
    · rcases (mem_takeDueLiveEnvelopes sorter).mp hm' with hdue | hlate
      · exact ⟨m', hdue, hseq⟩
      · -- an envelope that is left for later is not below a due one
        rw [← List.take_append_drop liveEnvelopeMaxBatchSize (sorter.sort b.pendingMessages)]
          at hsorted
        have := (List.pairwise_append.mp hsorted).2.2 m hm m' hlate
        omega
  · exact (hsorted.sublist (List.take_sublist ..)).filter _

/-- A safe flush gives the reducer the stored events up to its cursor. -/
theorem durableEvents_accepted (hrows : SafeRows rows) (h : BrowserInv rows start b)
    (hsafe : FlushSafe sorter rows b) :
    durableEvents (takeIncreasingLiveEnvelopes (b.due sorter) b.lastAppliedEventSeq).accepted =
      (between PublicEvent.seq b.lastAppliedEventSeq
        (takeIncreasingLiveEnvelopes (b.due sorter) b.lastAppliedEventSeq).cursor rows).map
          durableEvent := by
  have htaken := taken_takeIncreasingLiveEnvelopes (b.due sorter) b.lastAppliedEventSeq
  have happlied : 0 ≤ b.lastAppliedEventSeq := h.start_nonneg.trans h.start_le
  have hrow : ∀ m ∈ b.due sorter, 0 < durableSequence m.seq →
      ∃ row ∈ rows, m.toDurable = durableEvent row ∧ row.seq = durableSequence m.seq :=
    fun m hm hpos => (h.genuine m (mem_pending_of_due hm)).exists_row hpos
  generalize hbatch : takeIncreasingLiveEnvelopes (b.due sorter) b.lastAppliedEventSeq = batch
    at htaken
  have hasc : Ascending DurableEvent.seq (durableEvents batch.accepted) :=
    List.pairwise_map.mpr htaken.ascending
  have hasc' : Ascending DurableEvent.seq
      ((between PublicEvent.seq b.lastAppliedEventSeq batch.cursor rows).map durableEvent) :=
    List.pairwise_map.mpr (hrows.ascending.between _ _)
  refine hasc.eq_of_mem_iff hasc' fun event => ?_
  constructor
  · intro hevent
    obtain ⟨m, hm, rfl⟩ := List.mem_map.mp hevent
    obtain ⟨hm, hpos⟩ := mem_durableMessages.mp hm
    obtain ⟨row, hrow', heq, hseq⟩ := hrow m (htaken.mem m hm) hpos
    have hlt := htaken.lt m hm hpos
    have hle := htaken.seq_le m (htaken.mem m hm)
    rw [heq]
    exact List.mem_map_of_mem (mem_between.mpr ⟨hrow', by omega, by omega⟩)
  · intro hevent
    obtain ⟨row, hin, rfl⟩ := List.mem_map.mp hevent
    obtain ⟨hrow', hlt, hle⟩ := mem_between.mp hin
    -- an envelope of the batch carries the row
    have hx : ∃ x ∈ batch.accepted, durableSequence x.seq = row.seq := by
      rcases htaken.cursor_eq with heq | ⟨top, htop, heq⟩
      · omega
      · rcases lt_or_eq_of_le hle with hbelow | hend
        · obtain ⟨m, hm, hseq⟩ :=
            hsafe.1 row hrow' hlt ⟨top, htaken.mem top htop, by omega⟩
          have hpos := hrows.pos row hrow'
          obtain ⟨x, hx, hxseq⟩ := exists_accepted_of_sorted hsafe.2 hm
            (show 0 < durableSequence m.seq by omega)
            (show b.lastAppliedEventSeq < durableSequence m.seq by omega)
          exact ⟨x, hbatch ▸ hx, by omega⟩
        · exact ⟨top, htop, by omega⟩
    obtain ⟨x, hx, hxseq⟩ := hx
    have hxpos : 0 < durableSequence x.seq := hxseq ▸ hrows.pos row hrow'
    obtain ⟨row', hrow'', heq, hseq⟩ := hrow x (htaken.mem x hx) hxpos
    obtain rfl := hrows.ascending.eq_of_key_eq hrow'' hrow' (by omega)
    exact List.mem_map.mpr ⟨x, mem_durableMessages.mpr ⟨hx, hxpos⟩, heq⟩

/-- A safe flush keeps the invariant. -/
theorem keeps_flushMessages (hrows : SafeRows rows) (h : BrowserInv rows start b)
    (hsafe : FlushSafe sorter rows b) :
    BrowserInv rows start (b.flushMessages sorter) ∧
      ∀ row ∈ rows, b.Covers row.seq → (b.flushMessages sorter).Covers row.seq := by
  have htaken := taken_takeIncreasingLiveEnvelopes (b.due sorter) b.lastAppliedEventSeq
  have hreduced := durableEvents_accepted hrows h hsafe
  have hvalid := htaken.valid fun m hm => (h.genuine m (mem_pending_of_due hm)).valid hrows
  have happlied : 0 ≤ b.lastAppliedEventSeq := h.start_nonneg.trans h.start_le
  have hbatch : b.nextBatch sorter =
      (takeIncreasingLiveEnvelopes (b.due sorter) b.lastAppliedEventSeq,
        (takeDueLiveEnvelopes sorter b.pendingMessages).2) := rfl
  unfold Browser.flushMessages
  split
  · exact ⟨{ h with genuine := h.genuine }, fun _ _ hc => hc⟩
  · rw [hbatch]
    generalize takeIncreasingLiveEnvelopes (b.due sorter) b.lastAppliedEventSeq = batch
      at htaken hreduced hvalid
    dsimp only
    rw [if_neg (by simp [hvalid])]
    have hle : b.lastAppliedEventSeq ≤ batch.cursor := (le_max_right _ _).trans htaken.le
    have hcursor : batch.cursor = b.lastAppliedEventSeq ∨
        ∃ row ∈ rows, row.seq = batch.cursor := by
      rcases htaken.cursor_eq with heq | ⟨m, hm, heq⟩
      · exact Or.inl (by omega)
      · rcases lt_or_ge 0 batch.cursor with hpos | hneg
        · obtain ⟨row, hrow, -, hseq⟩ :=
            (h.genuine m (mem_pending_of_due (htaken.mem m hm))).exists_row
              (show 0 < durableSequence m.seq by omega)
          exact Or.inr ⟨row, hrow, by omega⟩
        · exact Or.inl (by omega)
    have hpending : ∀ cursor, ∀ m ∈ retainLiveEnvelopesAfterCursor
        (takeDueLiveEnvelopes sorter b.pendingMessages).2 cursor, m ∈ b.pendingMessages :=
      fun cursor m hm => (mem_takeDueLiveEnvelopes sorter).mpr (Or.inr (mem_retain hm).1)
    have hleft : ∀ m ∈ b.pendingMessages, batch.cursor < durableSequence m.seq →
        m ∈ retainLiveEnvelopesAfterCursor
          (takeDueLiveEnvelopes sorter b.pendingMessages).2 batch.cursor := by
      intro m hm hlt
      rcases (mem_takeDueLiveEnvelopes sorter).mp hm with hdue | hlate
      · have := htaken.seq_le m hdue
        omega
      · exact mem_retain_of_lt hlate (by omega) hlt
    have hadvance : ∀ b' : Browser, b'.lastAppliedEventSeq = batch.cursor →
        b'.reduced = b.reduced ++ durableEvents batch.accepted →
        b'.pendingMessages = retainLiveEnvelopesAfterCursor
          (takeDueLiveEnvelopes sorter b.pendingMessages).2 batch.cursor →
        b'.lastQueuedEventSeq = b.lastQueuedEventSeq →
        b'.queuedRecoveryTarget = b.queuedRecoveryTarget → b'.recovery = b.recovery →
        BrowserInv rows start b'.scheduleMessagesFlush ∧ ∀ row ∈ rows, b.Covers row.seq →
          b'.scheduleMessagesFlush.Covers row.seq := by
      intro b' hseq hred hpend hqueued htarget hrun
      obtain ⟨hinv, hcovers⟩ := h.advance hrows hle hcursor hseq (hreduced ▸ hred)
        (fun m hm => hpending _ m (hpend ▸ hm)) (fun m hm hlt => hpend ▸ hleft m hm hlt)
        (Or.inl hqueued) htarget hrun
      obtain ⟨hinv', hkept⟩ := keeps_scheduleMessagesFlush hinv
      exact ⟨hinv', fun row hrow hc => hkept _ (hcovers row hrow hc)⟩
    by_cases hnil : batch.accepted = []
    · -- nothing was accepted: the cursor has not moved
      have hsame : batch.cursor = b.lastAppliedEventSeq := by
        rcases htaken.cursor_eq with heq | ⟨m, hm, -⟩
        · omega
        · rw [hnil] at hm
          cases hm
      rw [if_pos hnil]
      refine hadvance _ hsame.symm ?_ ?_ rfl rfl rfl
      · simp [hnil, durableEvents, durableMessages]
      · rw [hsame]
    · rw [if_neg hnil]
      exact hadvance _ rfl rfl rfl rfl rfl rfl

theorem reset_flushMessages (h : b.resetRecoveryActive = true) :
    (b.flushMessages sorter).resetRecoveryActive = true := by
  unfold Browser.flushMessages
  split
  · exact h
  · generalize b.nextBatch sorter = batch
    dsimp only
    split
    · exact reset_backfillOrRefresh (reset_clearPending (by exact h)) _
    · refine reset_scheduleMessagesFlush ?_
      dsimp only
      split <;> exact h

end CartoLive.Web
