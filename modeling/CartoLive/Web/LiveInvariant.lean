import CartoLive.Lib.Ascending
import CartoLive.Web.LiveClient

/-!
# What the browser's handlers keep

`BrowserInv` says what the refs mean while no reset is under way: the reducer
has got exactly the stored events between the starting and the applied cursor,
and every event below a pending one is accounted for (`Browser.Covers`): it is
applied, pending, or below a target of recovery. Every handler keeps it
(`Browser.Keeps`), the flush under the condition that it leaves no event out.
-/

namespace CartoLive.Web

open CartoLive.Lib CartoLive.Live CartoLive.Store CartoLive.Api

/-! ## The invariant -/

/-- Stored events in the order of their safe sequences. -/
structure SafeRows (rows : List PublicEvent) : Prop where
  ascending : Ascending PublicEvent.seq rows
  pos : ∀ row ∈ rows, 0 < row.seq
  safe : ∀ row ∈ rows, row.seq ≤ maxSafeInteger

/-- An envelope without sequence, or one that carries a stored event. -/
def Genuine (rows : List PublicEvent) (message : PublicLiveEnvelope) : Prop :=
  classifyLiveEnvelopeSequence message = .fallback ∨
    ∃ row ∈ rows, message.toDurable = durableEvent row

/-- The page on its way back: the next stored events behind the cursor, each
once, with the last one as the cursor to go on from. -/
def PageInv (rows : List PublicEvent) (cursor : Int) (response : PublicEventsResponse) : Prop :=
  response.latestSeq ≤ maxSafeInteger ∧
    (response.resetRequired = false →
      response.events = [] ∨ ∃ row ∈ rows, cursor < row.seq ∧
        response.events =
          (between PublicEvent.seq cursor row.seq rows).map PublicEventTable.scanPublicEvent ∧
        decimalNumber response.nextCursor = row.seq)

/-- The sequences that a recovery under way accounts for: those up to its target
that the handler's answer to the present request has seen. -/
def RecoveryRun.Covers (run : RecoveryRun) (seq : Int) : Prop :=
  (∃ target ∈ run.requestedTarget, seq ≤ target) ∧
    match run.fetch with
    | .asked => True
    | .bounds bounds => seq ≤ bounds.2
    | .answered response => seq ≤ response.latestSeq

/-- The sequences that are accounted for. -/
def Browser.Covers (b : Browser) (seq : Int) : Prop :=
  seq ≤ b.lastAppliedEventSeq ∨ seq ≤ b.queuedRecoveryTarget ∨
    (∃ run ∈ b.recovery, run.Covers seq) ∨
    ∃ message ∈ b.pendingMessages, durableSequence message.seq = seq

/-- A recovery under way. -/
structure RunInv (rows : List PublicEvent) (applied : Int) (run : RecoveryRun) : Prop where
  cursor_nonneg : 0 ≤ run.loop.cursor
  cursor_le : run.loop.cursor ≤ applied
  target : ∀ target ∈ run.requestedTarget, 0 < target ∧ target ≤ run.loop.latestSeq
  target_safe : ∀ target, run.requestedTarget = some target → target ≤ maxSafeInteger
  bounds : ∀ bounds, run.fetch = .bounds bounds → bounds.2 ≤ maxSafeInteger
  page : ∀ response, run.fetch = .answered response → PageInv rows run.loop.cursor response

structure BrowserInv (rows : List PublicEvent) (start : Int) (b : Browser) : Prop where
  start_nonneg : 0 ≤ start
  start_le : start ≤ b.lastAppliedEventSeq
  cursor_row : b.lastAppliedEventSeq = start ∨ ∃ row ∈ rows, row.seq = b.lastAppliedEventSeq
  reduced : b.reduced =
    (between PublicEvent.seq start b.lastAppliedEventSeq rows).map durableEvent
  genuine : ∀ m ∈ b.pendingMessages, Genuine rows m
  noGap : ∀ m ∈ b.pendingMessages, ∀ row ∈ rows, row.seq < durableSequence m.seq →
    b.Covers row.seq
  queued : ∀ row ∈ rows, row.seq ≤ b.lastQueuedEventSeq → b.Covers row.seq
  queued_row : b.lastQueuedEventSeq ≤ b.lastAppliedEventSeq ∨
    ∃ row ∈ rows, b.lastQueuedEventSeq ≤ row.seq
  target_le : b.queuedRecoveryTarget ≤ maxSafeInteger
  run : ∀ run ∈ b.recovery, RunInv rows b.lastAppliedEventSeq run

/-- What a handler keeps, unless it starts a reset: the invariant, and that the
stored events are accounted for. -/
def Browser.Keeps (rows : List PublicEvent) (start : Int) (b b' : Browser) : Prop :=
  b'.resetRecoveryActive = true ∨
    BrowserInv rows start b' ∧ ∀ row ∈ rows, b.Covers row.seq → b'.Covers row.seq

variable {rows : List PublicEvent} {start : Int} {b b' b'' : Browser}

theorem seq_toDurable (message : PublicLiveEnvelope) :
    message.toDurable.seq = durableSequence message.seq := rfl

theorem Genuine.valid {message : PublicLiveEnvelope} (hrows : SafeRows rows)
    (h : Genuine rows message) : classifyLiveEnvelopeSequence message ≠ .invalid := by
  intro hinvalid
  rcases h with h | ⟨row, hrow, heq⟩
  · rw [h] at hinvalid
    cases hinvalid
  · have := hrows.pos row hrow
    have hseq := congrArg DurableEvent.seq heq
    rw [seq_toDurable, durableSequence_of_invalid hinvalid] at hseq
    have : (durableEvent row).seq = row.seq := rfl
    omega

/-- A durable genuine envelope carries a stored event. -/
theorem Genuine.exists_row {message : PublicLiveEnvelope} (h : Genuine rows message)
    (hpos : 0 < durableSequence message.seq) :
    ∃ row ∈ rows, message.toDurable = durableEvent row ∧ row.seq = durableSequence message.seq := by
  rcases h with h | ⟨row, hrow, heq⟩
  · rw [durableSequence_of_fallback h] at hpos
    omega
  · exact ⟨row, hrow, heq, (congrArg DurableEvent.seq heq).symm⟩

theorem le_queuedSeq {cursor seq : Int} {messages : List PublicLiveEnvelope}
    (h : seq ≤ Browser.queuedSeq cursor messages) :
    seq ≤ cursor ∨ ∃ m ∈ messages, seq ≤ durableSequence m.seq := by
  unfold Browser.queuedSeq at h
  induction messages generalizing cursor with
  | nil => exact Or.inl h
  | cons m messages ih =>
    rcases ih h with hle | ⟨m', hm', hle⟩
    · rcases le_max_iff.mp hle with hle | hle
      · exact Or.inl hle
      · exact Or.inr ⟨m, by simp, hle⟩
    · exact Or.inr ⟨m', by simp [hm'], hle⟩

/-- Everything up to a pending envelope is accounted for. -/
theorem BrowserInv.covers_of_le (h : BrowserInv rows start b) {message : PublicLiveEnvelope}
    (hm : message ∈ b.pendingMessages) {row : PublicEvent} (hrow : row ∈ rows)
    (hle : row.seq ≤ durableSequence message.seq) : b.Covers row.seq := by
  rcases lt_or_eq_of_le hle with hlt | heq
  · exact h.noGap message hm row hrow hlt
  · exact Or.inr (Or.inr (Or.inr ⟨message, hm, heq.symm⟩))

/-- The last queued sequence stays, or becomes that of the pending envelopes. -/
def Browser.Requeued (b b' : Browser) : Prop :=
  b'.lastQueuedEventSeq = b.lastQueuedEventSeq ∨
    b'.lastQueuedEventSeq = Browser.queuedSeq b'.lastAppliedEventSeq b'.pendingMessages

theorem BrowserInv.queued_after (h : BrowserInv rows start b)
    (hpending : ∀ m ∈ b'.pendingMessages, m ∈ b.pendingMessages)
    (hcovers : ∀ row ∈ rows, b.Covers row.seq → b'.Covers row.seq)
    (hqueued : b.Requeued b') :
    ∀ row ∈ rows, row.seq ≤ b'.lastQueuedEventSeq → b'.Covers row.seq := by
  intro row hrow hle
  rcases hqueued with heq | heq
  · exact hcovers row hrow (h.queued row hrow (heq ▸ hle))
  · rw [heq] at hle
    rcases le_queuedSeq hle with hle | ⟨m, hm, hle⟩
    · exact Or.inl hle
    · exact hcovers row hrow (h.covers_of_le (hpending m hm) hrow hle)

theorem BrowserInv.queued_row_after (h : BrowserInv rows start b)
    (hpending : ∀ m ∈ b'.pendingMessages, m ∈ b.pendingMessages)
    (hle : b.lastAppliedEventSeq ≤ b'.lastAppliedEventSeq) (hqueued : b.Requeued b') :
    b'.lastQueuedEventSeq ≤ b'.lastAppliedEventSeq ∨
      ∃ row ∈ rows, b'.lastQueuedEventSeq ≤ row.seq := by
  rcases hqueued with heq | heq
  · rw [heq]
    exact h.queued_row.imp_left fun hold => hold.trans hle
  · rcases le_queuedSeq heq.le with hbehind | ⟨m, hm, hbelow⟩
    · exact Or.inl hbehind
    · rcases lt_or_ge 0 (durableSequence m.seq) with hpos | hneg
      · obtain ⟨row, hrow, -, hseq⟩ := (h.genuine m (hpending m hm)).exists_row hpos
        exact Or.inr ⟨row, hrow, by omega⟩
      · have := h.start_nonneg
        have := h.start_le
        exact Or.inl (by omega)

/-- The parts that follow when messages only leave the queue and everything
stays accounted for. -/
theorem BrowserInv.keep (h : BrowserInv rows start b)
    (hpending : ∀ m ∈ b'.pendingMessages, m ∈ b.pendingMessages)
    (hcovers : ∀ row ∈ rows, b.Covers row.seq → b'.Covers row.seq)
    (happlied : b'.lastAppliedEventSeq = b.lastAppliedEventSeq) (hreduced : b'.reduced = b.reduced)
    (hqueued : b.Requeued b') (htarget : b'.queuedRecoveryTarget ≤ maxSafeInteger)
    (hrun : ∀ run ∈ b'.recovery, RunInv rows b'.lastAppliedEventSeq run) :
    b.Keeps rows start b' :=
  Or.inr
    ⟨{ start_nonneg := h.start_nonneg
       start_le := happlied ▸ h.start_le
       cursor_row := by rw [happlied]; exact h.cursor_row
       reduced := by rw [happlied, hreduced]; exact h.reduced
       genuine := fun m hm => h.genuine m (hpending m hm)
       noGap := fun m hm row hrow hlt => hcovers row hrow (h.noGap m (hpending m hm) row hrow hlt)
       queued := h.queued_after hpending hcovers hqueued
       queued_row := h.queued_row_after hpending happlied.ge hqueued
       target_le := htarget
       run := hrun }, hcovers⟩

theorem Browser.Keeps.refl (h : BrowserInv rows start b) : b.Keeps rows start b :=
  Or.inr ⟨h, fun _ _ hc => hc⟩

theorem Browser.Keeps.trans (h : b.Keeps rows start b')
    (h' : b'.resetRecoveryActive = false → BrowserInv rows start b' → b'.Keeps rows start b'')
    (hreset : b'.resetRecoveryActive = true → b''.resetRecoveryActive = true) :
    b.Keeps rows start b'' := by
  rcases h with h | ⟨hinv, hcovers⟩
  · exact Or.inl (hreset h)
  · cases hb : b'.resetRecoveryActive with
    | true => exact Or.inl (hreset hb)
    | false =>
      rcases h' hb hinv with h' | ⟨hinv', hcovers'⟩
      · exact Or.inl h'
      · exact Or.inr ⟨hinv', fun row hrow hc => hcovers' row hrow (hcovers row hrow hc)⟩

/-- The cursor moves over stored events, which the reducer gets. -/
theorem BrowserInv.advance (hrows : SafeRows rows) (h : BrowserInv rows start b) {cursor : Int}
    (hle : b.lastAppliedEventSeq ≤ cursor)
    (hcursor : cursor = b.lastAppliedEventSeq ∨ ∃ row ∈ rows, row.seq = cursor)
    (happlied : b'.lastAppliedEventSeq = cursor)
    (hreduced : b'.reduced = b.reduced ++
      (between PublicEvent.seq b.lastAppliedEventSeq cursor rows).map durableEvent)
    (hpending : ∀ m ∈ b'.pendingMessages, m ∈ b.pendingMessages)
    (hleft : ∀ m ∈ b.pendingMessages, cursor < durableSequence m.seq → m ∈ b'.pendingMessages)
    (hqueued : b.Requeued b') (htarget : b'.queuedRecoveryTarget = b.queuedRecoveryTarget)
    (hrun : b'.recovery = b.recovery) :
    BrowserInv rows start b' ∧ ∀ row ∈ rows, b.Covers row.seq → b'.Covers row.seq := by
  have hcovers : ∀ row ∈ rows, b.Covers row.seq → b'.Covers row.seq := by
    intro row _ hc
    rcases hc with hc | hc | hc | ⟨m, hm, hseq⟩
    · exact Or.inl (by omega)
    · exact Or.inr (Or.inl (htarget ▸ hc))
    · exact Or.inr (Or.inr (Or.inl (hrun ▸ hc)))
    · rcases lt_or_ge cursor row.seq with hlt | hge
      · exact Or.inr (Or.inr (Or.inr ⟨m, hleft m hm (by omega), hseq⟩))
      · exact Or.inl (by omega)
  refine ⟨?_, hcovers⟩
  exact
    { start_nonneg := h.start_nonneg
      start_le := by
        have := h.start_le
        omega
      cursor_row := by
        rw [happlied]
        rcases hcursor with heq | hrow
        · rw [heq]
          exact h.cursor_row
        · exact Or.inr hrow
      reduced := by
        rw [hreduced, happlied, between_append hrows.ascending h.start_le hle, List.map_append,
          h.reduced]
      genuine := fun m hm => h.genuine m (hpending m hm)
      noGap := fun m hm row hrow hlt => hcovers row hrow (h.noGap m (hpending m hm) row hrow hlt)
      queued := h.queued_after hpending hcovers hqueued
      queued_row := h.queued_row_after hpending (happlied ▸ hle) hqueued
      target_le := htarget ▸ h.target_le
      run := fun run hr => by
        have hold := h.run run (hrun ▸ hr)
        exact { hold with
          cursor_le := by
            have := hold.cursor_le
            omega } }

/-! ## Recovery -/

/-- A finished recovery that has caught up, or had nothing to fetch. -/
theorem keeps_settle (h : BrowserInv rows start b) {result : PublicEventRecoveryResult}
    (hcursor : result.cursor ≤ b.lastAppliedEventSeq)
    (hdone : result.status ≠ .resetRequired → result.status ≠ .unrecoverableGap →
      ∀ row ∈ rows, ∀ run ∈ b.recovery, run.Covers row.seq → row.seq ≤ b.lastAppliedEventSeq) :
    b.Keeps rows start (b.settle result) := by
  unfold Browser.settle
  split
  · exact Or.inl rfl
  · rename_i hstatus
    push Not at hstatus
    have hdone' := hdone hstatus.1 hstatus.2
    have hsame : max b.lastAppliedEventSeq result.cursor = b.lastAppliedEventSeq := max_eq_left hcursor
    split
    · -- caught up: the cursor stays, what it has passed leaves the queue
      rw [hsame]
      refine h.keep (fun m hm => (mem_retain hm).1) (fun row hrow hc => ?_) rfl rfl
        (Or.inr rfl) h.target_le (by simp)
      rcases hc with hc | hc | ⟨run, hrun, hc⟩ | ⟨m, hm, hseq⟩
      · exact Or.inl hc
      · exact Or.inr (Or.inl hc)
      · exact Or.inl (hdone' row hrow run hrun hc)
      · rcases lt_or_ge b.lastAppliedEventSeq row.seq with hlt | hge
        · refine Or.inr (Or.inr (Or.inr ⟨m, mem_retain_of_lt hm ?_ (by omega), hseq⟩))
          have := h.start_nonneg
          have := h.start_le
          omega
        · exact Or.inl hge
    · refine h.keep (fun m hm => hm) (fun row hrow hc => ?_) rfl rfl (Or.inl rfl) h.target_le (by simp)
      rcases hc with hc | hc | ⟨run, hrun, hc⟩ | hc
      · exact Or.inl hc
      · exact Or.inr (Or.inl hc)
      · exact Or.inl (hdone' row hrow run hrun hc)
      · exact Or.inr (Or.inr (Or.inr hc))

theorem durableSequence_targetOrPoll {target : Int} (h : target ≤ maxSafeInteger) :
    durableSequence (Browser.targetOrPoll target) = max 0 target := by
  unfold Browser.targetOrPoll
  split
  · exact finiteSequence_of_safe h
  · rw [max_eq_left (by omega)]
    rfl

theorem mem_targetOrPoll {target t : Int} :
    t ∈ Browser.targetOrPoll target ↔ 0 < target ∧ target = t := by
  unfold Browser.targetOrPoll
  split <;> simp_all

/-- `recover` takes the queued target over. -/
theorem keeps_startRecovery (h : BrowserInv rows start b) (hnone : b.recovery = none) :
    b.Keeps rows start b.startRecovery := by
  have happlied : 0 ≤ b.lastAppliedEventSeq := h.start_nonneg.trans h.start_le
  have hmax : max 0 b.lastAppliedEventSeq = b.lastAppliedEventSeq := max_eq_right happlied
  have hdurable := durableSequence_targetOrPoll h.target_le
  unfold Browser.startRecovery
  simp only [hmax, hdurable]
  split
  · -- the target is behind the cursor
    rename_i hearly
    obtain ⟨-, hle⟩ := hearly
    have htarget : ∀ seq, b.Covers seq →
        ({ b with queuedRecoveryTarget := 0, queuedRecoveryPoll := false } : Browser).Covers seq := by
      rintro seq (hc | hc | hc | hc)
      · exact Or.inl hc
      · refine Or.inl ?_
        show seq ≤ b.lastAppliedEventSeq
        omega
      · exact Or.inr (Or.inr (Or.inl hc))
      · exact Or.inr (Or.inr (Or.inr hc))
    have hinv : BrowserInv rows start
        { b with queuedRecoveryTarget := 0, queuedRecoveryPoll := false } :=
      { h with
        noGap := fun m hm row hrow hlt => htarget _ (h.noGap m hm row hrow hlt)
        queued := fun row hrow hle => htarget _ (h.queued row hrow hle)
        target_le := Int.natCast_nonneg _ }
    refine (keeps_settle hinv (le_refl _) (by simp [hnone])).imp_right fun ⟨hinv', hcovers⟩ =>
      ⟨hinv', fun row hrow hc => hcovers row hrow (htarget _ hc)⟩
  · -- the run under way accounts for what the queued target did
    rename_i hask
    refine h.keep (fun m hm => hm) (fun row hrow hc => ?_) rfl rfl (Or.inl rfl)
      (Int.natCast_nonneg _) fun run hr => ?_
    · rcases hc with hc | hc | ⟨run, hrun, -⟩ | hc
      · exact Or.inl hc
      · rcases lt_or_ge 0 b.queuedRecoveryTarget with hpos | hneg
        · exact Or.inr (Or.inr (Or.inl
            ⟨_, rfl, ⟨b.queuedRecoveryTarget, mem_targetOrPoll.mpr ⟨hpos, rfl⟩, hc⟩, trivial⟩))
        · refine Or.inl ?_
          show row.seq ≤ b.lastAppliedEventSeq
          omega
      · rw [hnone] at hrun
        cases hrun
      · exact Or.inr (Or.inr (Or.inr hc))
    · cases hr
      exact
        { cursor_nonneg := happlied
          cursor_le := le_refl _
          target := fun target ht => by
            obtain ⟨hpos, rfl⟩ := mem_targetOrPoll.mp ht
            exact ⟨hpos, (le_max_right _ _).trans (le_max_right _ _)⟩
          target_safe := fun target ht => by
            obtain ⟨-, rfl⟩ := mem_targetOrPoll.mp ht
            exact h.target_le
          bounds := by simp
          page := by simp }

theorem keeps_recover (h : BrowserInv rows start b) (hnone : b.recovery = none) :
    b.Keeps rows start b.recover := by
  unfold Browser.recover
  split
  · exact keeps_startRecovery h hnone
  · have hsame : ({ b with recovery := none } : Browser) = b := by rw [← hnone]
    rw [hsame]
    exact .refl h

theorem durableSequence_le (value : Option Int) : durableSequence value ≤ maxSafeInteger := by
  unfold durableSequence finiteSequence
  split
  · rename_i hsafe
    exact hsafe.2
  · decide

/-- A queued target accounts for the events up to it. -/
theorem keeps_queueRecovery (h : BrowserInv rows start b) (latestSeq : Option Int) :
    BrowserInv rows start (b.queueRecovery latestSeq) ∧
      ∀ seq, 0 < seq → b.Covers seq ∨ seq ≤ durableSequence latestSeq →
        (b.queueRecovery latestSeq).Covers seq := by
  unfold Browser.queueRecovery
  dsimp only
  split
  · have hraise : ∀ seq, b.Covers seq ∨ seq ≤ durableSequence latestSeq → Browser.Covers { b with
        queuedRecoveryTarget := max b.queuedRecoveryTarget (durableSequence latestSeq) } seq := by
      rintro seq ((hc | hc | hc | hc) | hc)
      · exact Or.inl hc
      · exact Or.inr (Or.inl (hc.trans (le_max_left _ _)))
      · exact Or.inr (Or.inr (Or.inl hc))
      · exact Or.inr (Or.inr (Or.inr hc))
      · exact Or.inr (Or.inl (hc.trans (le_max_right _ _)))
    refine ⟨?_, fun seq _ hc => hraise seq hc⟩
    exact { h with
      noGap := fun m hm row hrow hlt => hraise _ (Or.inl (h.noGap m hm row hrow hlt))
      queued := fun row hrow hle => hraise _ (Or.inl (h.queued row hrow hle))
      target_le := max_le h.target_le (durableSequence_le latestSeq) }
  · refine ⟨{ h with genuine := h.genuine }, fun seq hpos hc => ?_⟩
    rcases hc with hc | hc
    · exact hc
    · omega

/-- Asking for a recovery keeps everything accounted for, and the events up to
the target. -/
theorem keeps_backfillOrRefresh (hrows : SafeRows rows) (h : BrowserInv rows start b)
    (latestSeq : Option Int) :
    (b.backfillOrRefresh latestSeq).resetRecoveryActive = true ∨
      BrowserInv rows start (b.backfillOrRefresh latestSeq) ∧ ∀ row ∈ rows,
        b.Covers row.seq ∨ row.seq ≤ durableSequence latestSeq →
          (b.backfillOrRefresh latestSeq).Covers row.seq := by
  obtain ⟨hinv, hcovers⟩ := keeps_queueRecovery h latestSeq
  unfold Browser.backfillOrRefresh
  dsimp only
  split
  · exact Or.inr ⟨hinv, fun row hrow hc => hcovers _ (hrows.pos row hrow) hc⟩
  · rename_i hidle
    push Not at hidle
    have hnone : (b.queueRecovery latestSeq).recovery = none := by simpa using hidle.1
    have hinv' : BrowserInv rows start
        { b.queueRecovery latestSeq with recoveryRetryTimer := false } :=
      { hinv with genuine := hinv.genuine }
    exact (keeps_recover hinv' hnone).imp_right fun ⟨hinv'', hc'⟩ =>
      ⟨hinv'', fun row hrow hc => hc' row hrow (hcovers _ (hrows.pos row hrow) hc)⟩

/-! ### A reset stays -/

theorem reset_settle (h : b.resetRecoveryActive = true) (result : PublicEventRecoveryResult) :
    (b.settle result).resetRecoveryActive = true := by
  unfold Browser.settle
  split
  · rfl
  · split <;> exact h

theorem reset_backfillOrRefresh (h : b.resetRecoveryActive = true) (latestSeq : Option Int) :
    (b.backfillOrRefresh latestSeq).resetRecoveryActive = true := by
  have hqueued : (b.queueRecovery latestSeq).resetRecoveryActive = true := by
    unfold Browser.queueRecovery
    dsimp only
    split <;> exact h
  unfold Browser.backfillOrRefresh
  dsimp only
  rw [if_pos (Or.inr hqueued)]
  exact hqueued

/-! ### A page arrives -/

@[simp] theorem recovery_settle (b : Browser) (result : PublicEventRecoveryResult) :
    (b.settle result).recovery = none := by
  unfold Browser.settle
  split
  · rfl
  · split <;> rfl

/-- A result is settled, and what has been queued meanwhile is taken up. -/
theorem keeps_settle_recover (h : BrowserInv rows start b) {result : PublicEventRecoveryResult}
    (hcursor : result.cursor ≤ b.lastAppliedEventSeq)
    (hdone : result.status ≠ .resetRequired → result.status ≠ .unrecoverableGap →
      ∀ row ∈ rows, ∀ run ∈ b.recovery, run.Covers row.seq → row.seq ≤ b.lastAppliedEventSeq) :
    b.Keeps rows start (if (b.settle result).resetRecoveryActive = true then b.settle result
      else (b.settle result).recover) := by
  refine (keeps_settle h hcursor hdone).trans (fun hreset hinv => ?_) fun hreset => ?_
  · rw [if_neg (by simp [hreset])]
    exact keeps_recover hinv (recovery_settle b result)
  · rw [if_pos hreset]
    exact hreset

/-- Applying a page: the stored events from the applied cursor to its end. -/
theorem applyPage_eq (hrows : SafeRows rows) {cursor : Int} (hle : cursor ≤ b.lastAppliedEventSeq)
    {row : PublicEvent} (hrow : row ∈ rows) :
    b.applyPage ((between PublicEvent.seq cursor row.seq rows).map
        PublicEventTable.scanPublicEvent) =
      if row.seq ≤ b.lastAppliedEventSeq then b
      else
        { b with
          lastAppliedEventSeq := row.seq
          pendingMessages := retainLiveEnvelopesAfterCursor b.pendingMessages row.seq
          lastQueuedEventSeq := Browser.queuedSeq row.seq
            (retainLiveEnvelopesAfterCursor b.pendingMessages row.seq)
          reduced := b.reduced ++
            (between PublicEvent.seq b.lastAppliedEventSeq row.seq rows).map durableEvent } := by
  have hunapplied : (((between PublicEvent.seq cursor row.seq rows).map
      PublicEventTable.scanPublicEvent).filter fun event =>
        b.lastAppliedEventSeq < finiteSequence event.seq).insertionSort
          (fun left right => left.seq ≤ right.seq) =
      (between PublicEvent.seq b.lastAppliedEventSeq row.seq rows).map
        PublicEventTable.scanPublicEvent := by
    have hfilter : ((between PublicEvent.seq cursor row.seq rows).map
        PublicEventTable.scanPublicEvent).filter (fun event =>
          b.lastAppliedEventSeq < finiteSequence event.seq) =
        (between PublicEvent.seq b.lastAppliedEventSeq row.seq rows).map
          PublicEventTable.scanPublicEvent := by
      rw [List.filter_map, ← filter_between hle]
      refine congrArg _ (List.filter_congr fun r hr => ?_)
      have hr' := (mem_between.mp hr).1
      have hpos := hrows.pos r hr'
      simp only [Function.comp, PublicEventTable.seq_scanPublicEvent,
        finiteSequence_of_safe (hrows.safe r hr'), max_eq_right hpos.le]
    rw [hfilter]
    refine List.Pairwise.insertionSort_eq (List.pairwise_map.mpr ?_)
    exact (hrows.ascending.between _ _).imp fun hlt => le_of_lt hlt
  unfold Browser.applyPage
  simp only [hunapplied]
  by_cases hbehind : row.seq ≤ b.lastAppliedEventSeq
  · rw [between_self hbehind, if_pos hbehind]
    rfl
  · have hlt : b.lastAppliedEventSeq < row.seq := by omega
    have hlast := getLast?_between hrows.ascending hrow hlt
    have hne : (between PublicEvent.seq b.lastAppliedEventSeq row.seq rows).map
        PublicEventTable.scanPublicEvent ≠ [] := by
      intro hnil
      rw [List.map_eq_nil_iff.mp hnil] at hlast
      cases hlast
    rw [if_neg hne, if_neg hbehind, List.getLast?_map, hlast, List.map_map]
    rfl

/-- The applied cursor is at the end of a page that has been applied. -/
theorem keeps_applyPage (hrows : SafeRows rows) (h : BrowserInv rows start b) {cursor : Int}
    (hle : cursor ≤ b.lastAppliedEventSeq) {row : PublicEvent} (hrow : row ∈ rows)
    {b' : Browser} (hb : b' = b.applyPage ((between PublicEvent.seq cursor row.seq rows).map
      PublicEventTable.scanPublicEvent)) :
    (BrowserInv rows start b' ∧ ∀ r ∈ rows, b.Covers r.seq → b'.Covers r.seq) ∧
      row.seq ≤ b'.lastAppliedEventSeq ∧ b'.recovery = b.recovery := by
  rw [applyPage_eq hrows hle hrow] at hb
  by_cases hbehind : row.seq ≤ b.lastAppliedEventSeq
  · rw [if_pos hbehind] at hb
    subst hb
    exact ⟨⟨h, fun _ _ hc => hc⟩, hbehind, rfl⟩
  · rw [if_neg hbehind] at hb
    subst hb
    refine ⟨?_, le_refl _, rfl⟩
    have hlt : b.lastAppliedEventSeq ≤ row.seq := by omega
    refine h.advance hrows hlt (Or.inr ⟨row, hrow, rfl⟩) rfl rfl
      (fun m hm => (mem_retain hm).1) (fun m hm hlt => mem_retain_of_lt hm ?_ hlt)
      (Or.inr rfl) rfl rfl
    have := hrows.pos row hrow
    omega

/-- The events that the loop takes from a page, and the cursor that it goes on
from. -/
theorem freshEvents_page (hrows : SafeRows rows) {cursor : Int} (hcursor : 0 ≤ cursor)
    {response : PublicEventsResponse} {row : PublicEvent} (hrow : row ∈ rows)
    (hlt : cursor < row.seq)
    (hevents : response.events =
      (between PublicEvent.seq cursor row.seq rows).map PublicEventTable.scanPublicEvent)
    (hnext : decimalNumber response.nextCursor = row.seq) :
    freshEvents cursor response = response.events ∧ response.events ≠ [] ∧
      pageCursor response.events response = row.seq := by
  have hasc : response.events.Pairwise fun a b => a.seq < b.seq := by
    rw [hevents]
    exact List.pairwise_map.mpr (hrows.ascending.between _ _)
  have hlast : response.events.getLast? = some (PublicEventTable.scanPublicEvent row) := by
    rw [hevents, List.getLast?_map, getLast?_between hrows.ascending hrow hlt]
    rfl
  refine ⟨?_, ?_, ?_⟩
  · rw [freshEvents_eq_filter hasc]
    refine List.filter_eq_self.mpr fun e he => decide_eq_true ?_
    rw [hevents] at he
    obtain ⟨r, hr, rfl⟩ := List.mem_map.mp he
    obtain ⟨hr', hgt, -⟩ := mem_between.mp hr
    rw [PublicEventTable.seq_scanPublicEvent, finiteSequence_of_safe (hrows.safe r hr')]
    omega
  · intro hnil
    rw [hnil] at hlast
    cases hlast
  · unfold pageCursor
    rw [hlast, hnext, Option.map_some, Option.getD_some, PublicEventTable.seq_scanPublicEvent,
      finiteSequence_of_safe (hrows.safe row hrow), max_self, max_eq_right (hrows.pos row hrow).le]

/-- After a page the recovery has reached its target or asks for the next page. -/
theorem keeps_afterPage (h : BrowserInv rows start b) {run : RecoveryRun}
    (hrun : b.recovery = some run) (hr : RunInv rows b.lastAppliedEventSeq run) {next : Int}
    (hnext : next ≤ b.lastAppliedEventSeq) (hnonneg : 0 ≤ next) {latestSeq : Int} (pages : Nat)
    (hlatest : run.loop.latestSeq ≤ latestSeq) :
    b.Keeps rows start
      (match (if latestSeq ≤ next then
          .inl { status := .caughtUp, cursor := next, latestSeq, pages }
        else .inr { cursor := next, latestSeq, pages } :
          PublicEventRecoveryResult ⊕ RecoveryState) with
      | .inl result =>
        if (b.settle result).resetRecoveryActive = true then b.settle result
        else (b.settle result).recover
      | .inr loop => { b with recovery := some { run with loop, fetch := .asked } }) := by
  by_cases hcaught : latestSeq ≤ next
  · rw [if_pos hcaught]
    refine keeps_settle_recover h hnext fun _ _ row hrow run' hrun' hc => ?_
    rw [hrun] at hrun'
    cases hrun'
    obtain ⟨⟨target, ht, hle⟩, -⟩ := hc
    have := (hr.target target ht).2
    omega
  · rw [if_neg hcaught]
    refine h.keep (fun m hm => hm) (fun row _ hc => ?_) rfl rfl (Or.inl rfl) h.target_le
      fun run' hrun' => ?_
    · rcases hc with hc | hc | ⟨run', hrun', hc⟩ | hc
      · exact Or.inl hc
      · exact Or.inr (Or.inl hc)
      · rw [hrun] at hrun'
        cases hrun'
        exact Or.inr (Or.inr (Or.inl ⟨_, rfl, hc.1, trivial⟩))
      · exact Or.inr (Or.inr (Or.inr hc))
    · cases hrun'
      exact
        { cursor_nonneg := hnonneg
          cursor_le := hnext
          target := fun target ht =>
            ⟨(hr.target target ht).1, (hr.target target ht).2.trans hlatest⟩
          target_safe := hr.target_safe
          bounds := by simp
          page := by simp }

theorem keeps_pageArrives (hrows : SafeRows rows) (h : BrowserInv rows start b) {run : RecoveryRun}
    (hrun : b.recovery = some run) {response : PublicEventsResponse}
    (hfetch : run.fetch = .answered response) :
    b.Keeps rows start (b.pageArrives run response) := by
  have hr := h.run run hrun
  obtain ⟨hlatest, hpage⟩ := hr.page response hfetch
  have hcursor := hr.cursor_nonneg
  -- what the run accounts for is below its target
  have hcovered : ∀ run' ∈ b.recovery, ∀ seq, run'.Covers seq →
      seq ≤ response.latestSeq ∧ ∃ target, 0 < target ∧ seq ≤ target ∧
        target ≤ run.loop.latestSeq := by
    rintro run' hrun' seq ⟨⟨target, ht, hle⟩, hseen⟩
    rw [hrun] at hrun'
    cases hrun'
    rw [hfetch] at hseen
    exact ⟨hseen, target, (hr.target target ht).1, hle, (hr.target target ht).2⟩
  unfold Browser.pageArrives
  cases hreset : response.resetRequired with
  | true =>
    rw [recoverPageStep_reset hreset]
    refine keeps_settle_recover h hr.cursor_le fun hne _ row hrow run' hrun' hc => ?_
    -- only an empty stream is answered like this without a reset
    exfalso
    refine hne (if_neg fun hempty => ?_)
    have hseen := (hcovered run' hrun' row.seq hc).1
    have hpos := hrows.pos row hrow
    have hzero := hempty.1
    rw [finiteSequence_of_safe hlatest] at hzero
    omega
  | false =>
    rcases hpage hreset with hnil | ⟨row, hrow, hlt, hevents, hnext⟩
    · have hfresh : freshEvents run.loop.cursor response = [] := by
        unfold freshEvents
        rw [hnil]
        rfl
      rw [recoverPageStep_nothing hreset hfresh]
      refine keeps_settle_recover h hr.cursor_le fun _ hgap row hrow run' hrun' hc => ?_
      obtain ⟨-, target, hpos, hle, htarget⟩ := hcovered run' hrun' row.seq hc
      dsimp only at hgap
      split at hgap
      · have := hr.cursor_le
        omega
      · exact absurd rfl hgap
    · obtain ⟨hfresh, hne, hpageCursor⟩ := freshEvents_page hrows hcursor hrow hlt hevents hnext
      obtain ⟨⟨hinv, hcovers⟩, hend, hsame⟩ :=
        keeps_applyPage hrows h hr.cursor_le hrow (congrArg b.applyPage hevents)
      rw [← hfresh] at hne hpageCursor
      rw [recoverPageStep_some hreset hne hpageCursor hlt, hfresh] 
      rw [hfresh] at hne
      dsimp only
      rw [if_neg hne]
      have hkeeps := keeps_afterPage hinv (hsame.trans hrun)
        (hinv.run run (hsame.trans hrun)) hend (hrows.pos row hrow).le (run.loop.pages + 1)
        (le_max_left _ (finiteSequence response.latestSeq))
      exact hkeeps.imp_right fun ⟨hinv', hc'⟩ =>
        ⟨hinv', fun r hr' hc => hc' r hr' (hcovers r hr' hc)⟩

/-- A failed request leaves its target queued. -/
theorem keeps_fetchFails (h : BrowserInv rows start b) {run : RecoveryRun}
    (hrun : b.recovery = some run) : b.Keeps rows start (b.fetchFails run) := by
  unfold Browser.fetchFails
  cases htarget : run.requestedTarget with
  | none =>
    refine h.keep (fun m hm => hm) (fun row _ hc => ?_) rfl rfl (Or.inl rfl) h.target_le (by simp)
    rcases hc with hc | hc | ⟨run', hrun', ⟨target, ht, -⟩, -⟩ | hc
    · exact Or.inl hc
    · exact Or.inr (Or.inl hc)
    · rw [hrun] at hrun'
      cases hrun'
      rw [htarget] at ht
      cases ht
    · exact Or.inr (Or.inr (Or.inr hc))
  | some target =>
    have hr := h.run run hrun
    refine h.keep (fun m hm => hm) (fun row _ hc => ?_) rfl rfl (Or.inl rfl)
      (max_le h.target_le (hr.target_safe target htarget)) (by simp)
    rcases hc with hc | hc | ⟨run', hrun', ⟨target', ht, hle⟩, -⟩ | hc
    · exact Or.inl hc
    · exact Or.inr (Or.inl (hc.trans (le_max_left _ _)))
    · rw [hrun] at hrun'
      cases hrun'
      rw [htarget] at ht
      cases ht
      exact Or.inr (Or.inl (hle.trans (le_max_right _ _)))
    · exact Or.inr (Or.inr (Or.inr hc))

theorem reset_pageArrives (h : b.resetRecoveryActive = true) (run : RecoveryRun)
    (response : PublicEventsResponse) :
    (b.pageArrives run response).resetRecoveryActive = true := by
  have happly : ∀ events, (b.applyPage events).resetRecoveryActive = true := fun events => by
    unfold Browser.applyPage
    dsimp only
    split <;> exact h
  unfold Browser.pageArrives
  generalize recoverPageStep run.loop response = out
  obtain ⟨events, next⟩ := out
  have hb : (if events = [] then b else b.applyPage events).resetRecoveryActive = true := by
    split
    · exact h
    · exact happly events
  cases next with
  | inl result =>
    have hsettle := reset_settle hb result
    dsimp only
    rw [if_pos hsettle]
    exact hsettle
  | inr loop => exact hb

theorem reset_fetchFails (h : b.resetRecoveryActive = true) (run : RecoveryRun) :
    (b.fetchFails run).resetRecoveryActive = true := by
  unfold Browser.fetchFails
  cases run.requestedTarget <;> exact h

/-! ## Live messages -/

theorem reset_scheduleMessagesFlush (h : b.resetRecoveryActive = true) :
    b.scheduleMessagesFlush.resetRecoveryActive = true := by
  unfold Browser.scheduleMessagesFlush
  split <;> exact h

/-- Asking for a frame is no matter here. -/
theorem keeps_scheduleMessagesFlush (h : BrowserInv rows start b) :
    BrowserInv rows start b.scheduleMessagesFlush ∧
      ∀ seq, b.Covers seq → b.scheduleMessagesFlush.Covers seq := by
  unfold Browser.scheduleMessagesFlush
  split
  · exact ⟨h, fun _ hc => hc⟩
  · exact ⟨{ h with genuine := h.genuine }, fun _ hc => hc⟩

/-- Giving the queue up keeps the invariant; what was pending is then for a
recovery to account for. -/
theorem keeps_clearPending (h : BrowserInv rows start b) :
    BrowserInv rows start b.clearPending :=
  { h with
    genuine := by simp [Browser.clearPending]
    noGap := by simp [Browser.clearPending]
    queued := fun _ _ hle => Or.inl hle
    queued_row := Or.inl (le_refl _) }

end CartoLive.Web
