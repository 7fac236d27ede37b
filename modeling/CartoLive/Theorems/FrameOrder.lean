import CartoLive.Lib.Ascending
import CartoLive.Lib.RunSort
import CartoLive.Web.LiveClient

/-!
# Frames and durable order

A frame sorts the pending envelopes, applies the first of them behind the cursor and keeps
the others. The comparator takes durable envelopes by their seqs and mixed pairs by their
times, which is no order when a best-effort envelope is timed between two durable ones that
are timed against their seqs (`Straddle`). The sort may then put the later seq first, and
the frame drops the earlier one behind it.

## Main results

* `frames_keep_order_iff` : the queues of a pool are flushed in order if and only if the pool
  has no straddle.
-/

namespace CartoLive.Theorems.FrameOrder

open CartoLive.Lib CartoLive.Web

/-- `Array.prototype.sort` of the engine. -/
def engineSort : EnvelopeSort where
  sort := RunSort.runSort compareLiveEnvelopes
  perm l := RunSort.perm_runSort _ l
  sorted l hc := by
    refine RunSort.inOrder_runSort ⟨fun a ha b hb hab => ?_, hc.trans⟩
    unfold compareLiveEnvelopes at hab ⊢
    dsimp only at hab ⊢
    split at hab <;> split <;> (try split at hab) <;> (try split) <;> omega

/-! ## Frames -/

/-- What the next frames accept. -/
def acceptedIn : Nat → Browser → List PublicLiveEnvelope
  | 0, _ => []
  | frames + 1, b =>
    (b.nextBatch engineSort).1.accepted ++ acceptedIn frames (b.flushMessages engineSort)

/-- The browser after the next frames. -/
def afterFrames : Nat → Browser → Browser
  | 0, b => b
  | frames + 1, b => afterFrames frames (b.flushMessages engineSort)

def bestEffort (messages : List PublicLiveEnvelope) : List PublicLiveEnvelope :=
  messages.filter fun message => ¬ 0 < durableSequence message.seq

/-- A queue whose durable envelopes came in increasing order above the cursor. -/
structure Arrived (b : Browser) : Prop where
  valid : ∀ m ∈ b.pendingMessages, classifyLiveEnvelopeSequence m ≠ .invalid
  beyond : ∀ m ∈ durableMessages b.pendingMessages,
    b.lastAppliedEventSeq < durableSequence m.seq
  increasing : Ascending (fun m => durableSequence m.seq) (durableMessages b.pendingMessages)

/-- The frames that empty the queue accept its durable envelopes once, in the order of their
seqs, which is that of the queue, and its best-effort envelopes once. -/
def FlushedInOrder (b : Browser) : Prop :=
  ∀ frames, b.pendingMessages.length ≤ frames →
    (afterFrames frames b).pendingMessages = [] ∧
    durableMessages (acceptedIn frames b) = durableMessages b.pendingMessages ∧
    (bestEffort (acceptedIn frames b)).Perm (bestEffort b.pendingMessages)

/-- Two durable envelopes timed against their seqs, and a best-effort one between them. -/
def Straddle (d d' f : PublicLiveEnvelope) : Prop :=
  0 < durableSequence d.seq ∧ durableSequence d.seq < durableSequence d'.seq ∧
    durableSequence f.seq = 0 ∧ liveEnvelopeDisplayAt d' < liveEnvelopeDisplayAt f ∧
    liveEnvelopeDisplayAt f ≤ liveEnvelopeDisplayAt d

def NoStraddle (messages : List PublicLiveEnvelope) : Prop :=
  ∀ d ∈ messages, ∀ d' ∈ messages, ∀ f ∈ messages, ¬ Straddle d d' f

/-! ## The comparator -/

theorem mem_durable_or_zero (m : PublicLiveEnvelope) :
    0 < durableSequence m.seq ∨ durableSequence m.seq = 0 := by
  have := durableSequence_nonneg m.seq
  omega

theorem compare_nonpos_iff (a b : PublicLiveEnvelope) :
    compareLiveEnvelopes a b ≤ 0 ↔
      if 0 < durableSequence a.seq ∧ 0 < durableSequence b.seq then
        durableSequence a.seq ≤ durableSequence b.seq
      else liveEnvelopeDisplayAt a < liveEnvelopeDisplayAt b ∨
        liveEnvelopeDisplayAt a = liveEnvelopeDisplayAt b ∧
          durableSequence a.seq ≤ durableSequence b.seq := by
  unfold compareLiveEnvelopes
  dsimp only
  split
  · omega
  · split <;> omega

/-- Without a straddle the comparator orders the envelopes. -/
theorem consistent_of_noStraddle {l : List PublicLiveEnvelope} (h : NoStraddle l)
    (hsame : ∀ d ∈ l, ∀ d' ∈ l, 0 < durableSequence d.seq →
      durableSequence d.seq = durableSequence d'.seq → d = d') :
    Consistent compareLiveEnvelopes l where
  total a ha b hb := by
    rw [compare_nonpos_iff, compare_nonpos_iff]
    split <;> split <;> omega
  trans a ha b hb c hc := by
    have htime : ∀ d ∈ l, ∀ d' ∈ l, 0 < durableSequence d.seq →
        durableSequence d.seq = durableSequence d'.seq →
        liveEnvelopeDisplayAt d = liveEnvelopeDisplayAt d' := fun d hd d' hd' hpos heq =>
      congrArg liveEnvelopeDisplayAt (hsame d hd d' hd' hpos heq)
    have hab := htime a ha b hb
    have hbc := htime b hb c hc
    -- the best-effort envelope is the last, the first or the one in the middle
    have hlast := h a ha b hb c hc
    have hfirst := h b hb c hc a ha
    have hmiddle := h c hc a ha b hb
    unfold Straddle at hlast hfirst hmiddle
    rw [compare_nonpos_iff, compare_nonpos_iff, compare_nonpos_iff]
    intro hle hle'
    rcases mem_durable_or_zero a with hza | hza <;> rcases mem_durable_or_zero b with hzb | hzb <;>
      rcases mem_durable_or_zero c with hzc | hzc <;>
      simp only [hza, hzb, hzc, true_and, and_true, false_and, and_false, if_true, if_false,
        lt_irrefl, true_imp_iff, false_imp_iff] at hab hbc hlast hfirst hmiddle hle hle' ⊢ <;>
      omega

/-! ## One frame -/

theorem durableMessages_append (messages more : List PublicLiveEnvelope) :
    durableMessages (messages ++ more) = durableMessages messages ++ durableMessages more :=
  List.filter_append ..

theorem bestEffort_append (messages more : List PublicLiveEnvelope) :
    bestEffort (messages ++ more) = bestEffort messages ++ bestEffort more :=
  List.filter_append ..

/-- Durable envelopes that increase are all accepted. -/
theorem accepted_takeIncreasing {messages : List PublicLiveEnvelope} {afterSeq : Int}
    (hvalid : ∀ m ∈ messages, classifyLiveEnvelopeSequence m ≠ .invalid)
    (hbeyond : ∀ m ∈ durableMessages messages, afterSeq < durableSequence m.seq)
    (hincreasing : (durableMessages messages).Pairwise fun m m' =>
      durableSequence m.seq < durableSequence m'.seq) :
    (takeIncreasingLiveEnvelopes messages afterSeq).accepted = messages := by
  induction messages using List.reverseRecOn with
  | nil => rfl
  | append_singleton messages m ih =>
    rw [durableMessages_append] at hbeyond hincreasing
    obtain ⟨hbefore, -, hlast⟩ := List.pairwise_append.mp hincreasing
    have haccepted := ih (fun x hx => hvalid x (List.mem_append_left _ hx))
      (fun x hx => hbeyond x (List.mem_append_left _ hx)) hbefore
    have hstep : takeIncreasingLiveEnvelopes (messages ++ [m]) afterSeq =
        (takeIncreasingLiveEnvelopes messages afterSeq).take m := by
      simp [takeIncreasingLiveEnvelopes]
    have htaken := taken_takeIncreasingLiveEnvelopes messages afterSeq
    rw [hstep]
    generalize takeIncreasingLiveEnvelopes messages afterSeq = batch at haccepted htaken
    unfold IncreasingLiveEnvelopeBatch.take
    cases hclass : classifyLiveEnvelopeSequence m with
    | invalid => exact absurd hclass (hvalid m (by simp))
    | fallback => exact congrArg (· ++ [m]) haccepted
    | durable seq =>
      obtain ⟨hseq, hpos⟩ := classify_eq_durable_iff.mp hclass
      have hdurable : m ∈ durableMessages [m] := mem_durableMessages.mpr ⟨by simp, by omega⟩
      have hafter := hbeyond m (List.mem_append_right _ hdurable)
      -- the cursor is where it was, or at an envelope before this one
      have hcursor : batch.cursor < seq := by
        rcases htaken.cursor_eq with heq | ⟨x, hx, heq⟩
        · omega
        · by_cases hxpos : 0 < durableSequence x.seq
          · have := hlast x (mem_durableMessages.mpr ⟨htaken.mem x hx, hxpos⟩) m hdurable
            omega
          · omega
      dsimp only
      rw [if_neg (by omega), if_neg (by omega), haccepted]

theorem noStraddle_subset {messages some : List PublicLiveEnvelope} (h : NoStraddle messages)
    (hsub : some ⊆ messages) : NoStraddle some := fun d hd d' hd' f hf =>
  h d (hsub hd) d' (hsub hd') f (hsub hf)

/-- The sort of a queue without a straddle keeps the order of its durable envelopes. -/
theorem durableMessages_sort {b : Browser} (h : Arrived b) (hno : NoStraddle b.pendingMessages) :
    durableMessages (engineSort.sort b.pendingMessages) = durableMessages b.pendingMessages := by
  have hperm := (engineSort.perm b.pendingMessages).filter fun m => 0 < durableSequence m.seq
  have hsame : ∀ d ∈ b.pendingMessages, ∀ d' ∈ b.pendingMessages, 0 < durableSequence d.seq →
      durableSequence d.seq = durableSequence d'.seq → d = d' := by
    intro d hd d' hd' hpos heq
    exact h.increasing.eq_of_key_eq (mem_durableMessages.mpr ⟨hd, hpos⟩)
      (mem_durableMessages.mpr ⟨hd', by omega⟩) heq
  have hsorted : (durableMessages (engineSort.sort b.pendingMessages)).Pairwise fun m m' =>
      durableSequence m.seq ≤ durableSequence m'.seq := by
    have hfilter := List.Pairwise.filter (fun m => decide (0 < durableSequence m.seq))
      (engineSort.sorted _ (consistent_of_noStraddle hno hsame))
    refine hfilter.imp_of_mem fun hm hm' hle => ?_
    rw [compareLiveEnvelopes_durable (mem_durableMessages.mp hm).2
      (mem_durableMessages.mp hm').2] at hle
    omega
  refine hperm.eq_of_pairwise (fun m m' hm hm' hle hle' => ?_) hsorted
    (h.increasing.imp fun hlt => hlt.le)
  have hmem := mem_durableMessages.mp hm'
  have heq : durableSequence m.seq = durableSequence m'.seq := le_antisymm hle hle'
  exact h.increasing.eq_of_key_eq (hperm.mem_iff.mp hm) hm' heq

theorem sort_eq_nil : engineSort.sort [] = [] := rfl

/-- What a frame does with a queue that is not empty and has no straddle. -/
structure Frame (b b' : Browser) (accepted : List PublicLiveEnvelope) : Prop where
  shorter : b'.pendingMessages.length < b.pendingMessages.length
  subset : b'.pendingMessages ⊆ b.pendingMessages
  arrived : Arrived b'
  durable : durableMessages accepted ++ durableMessages b'.pendingMessages =
    durableMessages b.pendingMessages
  bestEffort : (bestEffort accepted ++ bestEffort b'.pendingMessages).Perm
    (bestEffort b.pendingMessages)

@[simp] theorem pendingMessages_scheduleMessagesFlush (b : Browser) :
    b.scheduleMessagesFlush.pendingMessages = b.pendingMessages := by
  unfold Browser.scheduleMessagesFlush
  split <;> rfl

@[simp] theorem lastAppliedEventSeq_scheduleMessagesFlush (b : Browser) :
    b.scheduleMessagesFlush.lastAppliedEventSeq = b.lastAppliedEventSeq := by
  unfold Browser.scheduleMessagesFlush
  split <;> rfl

/-- A frame whose batch is valid and not empty. -/
theorem flushMessages_of_accepted {b : Browser} (hne : b.pendingMessages ≠ [])
    (hvalid : (b.nextBatch engineSort).1.invalid = false)
    (haccepted : (b.nextBatch engineSort).1.accepted ≠ []) :
    (b.flushMessages engineSort).pendingMessages =
        retainLiveEnvelopesAfterCursor (b.nextBatch engineSort).2
          (b.nextBatch engineSort).1.cursor ∧
      (b.flushMessages engineSort).lastAppliedEventSeq = (b.nextBatch engineSort).1.cursor := by
  unfold Browser.flushMessages
  rw [if_neg hne]
  generalize b.nextBatch engineSort = taken at hvalid haccepted
  obtain ⟨batch, pending⟩ := taken
  dsimp only at hvalid haccepted ⊢
  rw [if_neg (by rw [hvalid]; simp), if_neg haccepted]
  simp

theorem frame_flushMessages {b : Browser} (h : Arrived b) (hno : NoStraddle b.pendingMessages)
    (hne : b.pendingMessages ≠ []) :
    Frame b (b.flushMessages engineSort) (b.nextBatch engineSort).1.accepted := by
  have hperm := engineSort.perm b.pendingMessages
  have hdurable := durableMessages_sort h hno
  have hbatch : b.nextBatch engineSort =
      (takeIncreasingLiveEnvelopes
        ((engineSort.sort b.pendingMessages).take liveEnvelopeMaxBatchSize) b.lastAppliedEventSeq,
        (engineSort.sort b.pendingMessages).drop liveEnvelopeMaxBatchSize) := rfl
  have hflush := flushMessages_of_accepted hne
  rw [hbatch] at hflush ⊢
  generalize engineSort.sort b.pendingMessages = ordered at hperm hdurable hflush ⊢
  have hsplit : ordered.take liveEnvelopeMaxBatchSize ++ ordered.drop liveEnvelopeMaxBatchSize =
      ordered := List.take_append_drop _ _
  have hsome : ordered.take liveEnvelopeMaxBatchSize ≠ [] := by
    intro hnil
    rcases List.take_eq_nil_iff.mp hnil with hzero | hnil
    · exact absurd hzero (by decide)
    · rw [hnil] at hperm
      exact hne hperm.nil_eq.symm
  generalize ordered.take liveEnvelopeMaxBatchSize = due at hsplit hflush hsome ⊢
  generalize ordered.drop liveEnvelopeMaxBatchSize = left at hsplit hflush ⊢
  have hmem : ∀ m, m ∈ due ∨ m ∈ left → m ∈ b.pendingMessages := fun m hm =>
    hperm.mem_iff.mp (hsplit ▸ List.mem_append.mpr hm)
  have hincreasing := h.increasing
  rw [← hdurable, ← hsplit, durableMessages_append] at hincreasing
  obtain ⟨hfirst, hlast, hacross⟩ := List.pairwise_append.mp hincreasing
  have hvalid : ∀ m ∈ due, classifyLiveEnvelopeSequence m ≠ .invalid := fun m hm =>
    h.valid m (hmem m (.inl hm))
  have hbeyond : ∀ m, m ∈ due ∨ m ∈ left → 0 < durableSequence m.seq →
      b.lastAppliedEventSeq < durableSequence m.seq := fun m hm hpos =>
    h.beyond m (mem_durableMessages.mpr ⟨hmem m hm, hpos⟩)
  have haccepted : (takeIncreasingLiveEnvelopes due b.lastAppliedEventSeq).accepted = due :=
    accepted_takeIncreasing hvalid
      (fun m hm => hbeyond m (.inl (mem_durableMessages.mp hm).1) (mem_durableMessages.mp hm).2)
      hfirst
  have htaken := taken_takeIncreasingLiveEnvelopes due b.lastAppliedEventSeq
  dsimp only at hflush ⊢
  generalize takeIncreasingLiveEnvelopes due b.lastAppliedEventSeq = batch at haccepted htaken hflush ⊢
  -- the envelopes that are left are beyond the new cursor
  have hcursor : ∀ m ∈ durableMessages left, batch.cursor < durableSequence m.seq := by
    intro m hm
    obtain ⟨hmleft, hpos⟩ := mem_durableMessages.mp hm
    have hafter := hbeyond m (.inr hmleft) hpos
    rcases htaken.cursor_eq with heq | ⟨x, hx, heq⟩
    · omega
    · by_cases hxpos : 0 < durableSequence x.seq
      · have hlt : durableSequence x.seq < durableSequence m.seq :=
          hacross x (mem_durableMessages.mpr ⟨htaken.mem x hx, hxpos⟩) m hm
        omega
      · omega
  have hstays : retainLiveEnvelopesAfterCursor left batch.cursor = left := by
    refine List.filter_eq_self.mpr fun m hm => ?_
    cases hclass : classifyLiveEnvelopeSequence m with
    | fallback => rfl
    | invalid => exact absurd hclass (h.valid m (hmem m (.inr hm)))
    | durable seq =>
      obtain ⟨hseq, hpos⟩ := classify_eq_durable_iff.mp hclass
      have hlt := hcursor m (mem_durableMessages.mpr ⟨hm, by omega⟩)
      exact decide_eq_true (by omega)
  obtain ⟨hpending, hlastApplied⟩ := hflush (htaken.valid hvalid) (by rw [haccepted]; exact hsome)
  rw [hstays] at hpending
  have hlength := hperm.length_eq
  rw [← hsplit, List.length_append] at hlength
  have hpos := List.length_pos_iff.mpr hsome
  refine ⟨?_, ?_, ⟨?_, ?_, ?_⟩, ?_, ?_⟩
  · rw [hpending]
    omega
  · rw [hpending]
    exact fun m hm => hmem m (.inr hm)
  · rw [hpending]
    exact fun m hm => h.valid m (hmem m (.inr hm))
  · rw [hpending, hlastApplied]
    exact hcursor
  · rw [hpending]
    exact hlast
  · rw [haccepted, hpending, ← durableMessages_append, hsplit, hdurable]
  · rw [haccepted, hpending, ← bestEffort_append, hsplit]
    exact hperm.filter _

/-! ## All frames -/

theorem nextBatch_nil {b : Browser} (h : b.pendingMessages = []) :
    (b.nextBatch engineSort).1.accepted = [] := by
  unfold Browser.nextBatch
  rw [h]
  rfl

theorem flushMessages_nil {b : Browser} (h : b.pendingMessages = []) :
    (b.flushMessages engineSort).pendingMessages = [] := by
  unfold Browser.flushMessages
  rw [if_pos h]
  exact h

/-- An empty queue stays empty. -/
theorem frames_nil (frames : Nat) {b : Browser} (h : b.pendingMessages = []) :
    (afterFrames frames b).pendingMessages = [] ∧ acceptedIn frames b = [] := by
  induction frames generalizing b with
  | zero => exact ⟨h, rfl⟩
  | succ frames ih =>
    obtain ⟨hpending, haccepted⟩ := ih (flushMessages_nil h)
    refine ⟨hpending, ?_⟩
    rw [acceptedIn, nextBatch_nil h, haccepted, List.append_nil]

theorem flushed_of_noStraddle {b : Browser} (h : Arrived b) (hno : NoStraddle b.pendingMessages) :
    FlushedInOrder b := by
  intro frames hframes
  induction frames generalizing b with
  | zero =>
    have hnil : b.pendingMessages = [] := List.length_eq_zero_iff.mp (by omega)
    refine ⟨hnil, ?_, ?_⟩
    · rw [hnil]
      rfl
    · rw [hnil]
      exact .refl _
  | succ frames ih =>
    by_cases hnil : b.pendingMessages = []
    · obtain ⟨hpending, haccepted⟩ := frames_nil (frames + 1) hnil
      rw [haccepted, hnil]
      exact ⟨hpending, rfl, .refl _⟩
    · have hframe := frame_flushMessages h hno hnil
      have hshorter := hframe.shorter
      obtain ⟨hdone, hdurable, heffort⟩ := ih hframe.arrived
        (noStraddle_subset hno hframe.subset) (by omega)
      refine ⟨hdone, ?_, ?_⟩
      · rw [acceptedIn, durableMessages_append, hdurable, hframe.durable]
      · rw [acceptedIn, bestEffort_append]
        exact (List.Perm.append_left _ heffort).trans hframe.bestEffort

/-! ## A straddle -/

/-- The queue of a straddle is one strictly descending run. -/
theorem sort_straddle {d d' f : PublicLiveEnvelope} (h : Straddle d d' f) :
    engineSort.sort [d, f, d'] = [d', f, d] := by
  obtain ⟨hpos, hlt, hzero, hbefore, hupto⟩ := h
  have hfd : compareLiveEnvelopes f d < 0 := by
    unfold compareLiveEnvelopes
    dsimp only
    rw [if_neg (by omega)]
    split <;> omega
  have hdf : compareLiveEnvelopes d' f < 0 := by
    unfold compareLiveEnvelopes
    dsimp only
    rw [if_neg (by omega)]
    split <;> omega
  exact RunSort.runSort_descending_three hfd hdf

section Take

variable {batch : IncreasingLiveEnvelopeBatch} {m : PublicLiveEnvelope}

theorem take_of_fallback (h : classifyLiveEnvelopeSequence m = .fallback) :
    batch.take m = { batch with accepted := batch.accepted ++ [m] } := by
  unfold IncreasingLiveEnvelopeBatch.take
  rw [h]

theorem take_of_after {seq : Int} (h : classifyLiveEnvelopeSequence m = .durable seq)
    (hafter : batch.cursor < seq) :
    batch.take m = { batch with accepted := batch.accepted ++ [m], cursor := seq } := by
  unfold IncreasingLiveEnvelopeBatch.take
  rw [h]
  dsimp only
  rw [if_neg (by omega), if_neg (by omega)]

theorem take_of_before {seq : Int} (h : classifyLiveEnvelopeSequence m = .durable seq)
    (hbefore : seq < batch.cursor) : batch.take m = { batch with nonMonotonic := true } := by
  unfold IncreasingLiveEnvelopeBatch.take
  rw [h]
  dsimp only
  rw [if_neg (by omega), if_pos hbefore]

end Take

/-- A browser with a straddle in its queue. -/
def straddleBrowser (cursor : Int) (d d' f : PublicLiveEnvelope) : Browser :=
  { freshBrowser cursor 0 0 with pendingMessages := [d, f, d'] }

/-- Its frame drops the earlier durable envelope behind the later one. -/
theorem acceptedIn_straddle {cursor : Int} {d d' f : PublicLiveEnvelope} (h : Straddle d d' f)
    (hcursor : cursor < durableSequence d.seq)
    (hvalid : classifyLiveEnvelopeSequence f ≠ .invalid) (frames : Nat) :
    acceptedIn (frames + 1) (straddleBrowser cursor d d' f) = [d', f] := by
  have hbatch : (straddleBrowser cursor d d' f).nextBatch engineSort =
      (takeIncreasingLiveEnvelopes [d', f, d] cursor, []) := by
    unfold Browser.nextBatch takeDueLiveEnvelopes
    have hpending : (straddleBrowser cursor d d' f).pendingMessages = [d, f, d'] := rfl
    rw [hpending, sort_straddle h]
    rfl
  obtain ⟨hpos, hlt, hzero, -, -⟩ := h
  have hd : classifyLiveEnvelopeSequence d = .durable (durableSequence d.seq) :=
    classify_eq_durable_iff.mpr ⟨rfl, hpos⟩
  have hd' : classifyLiveEnvelopeSequence d' = .durable (durableSequence d'.seq) :=
    classify_eq_durable_iff.mpr ⟨rfl, by omega⟩
  have hf : classifyLiveEnvelopeSequence f = .fallback := by
    cases hclass : classifyLiveEnvelopeSequence f with
    | fallback => rfl
    | invalid => exact absurd hclass hvalid
    | durable seq =>
      have := classify_eq_durable_iff.mp hclass
      omega
  have htaken : takeIncreasingLiveEnvelopes [d', f, d] cursor =
      { accepted := [d', f], cursor := durableSequence d'.seq, invalid := false
        nonMonotonic := true } := by
    unfold takeIncreasingLiveEnvelopes
    rw [List.foldl_cons, List.foldl_cons, List.foldl_cons, List.foldl_nil,
      take_of_after hd' (by dsimp only; omega), take_of_fallback hf, take_of_before hd hlt]
    rfl
  have hflush := flushMessages_of_accepted (b := straddleBrowser cursor d d' f)
    (List.cons_ne_nil _ _) (by rw [hbatch, htaken]) (by rw [hbatch, htaken]; exact List.cons_ne_nil _ _)
  rw [hbatch] at hflush
  have hpending : ((straddleBrowser cursor d d' f).flushMessages engineSort).pendingMessages = [] :=
    hflush.1
  rw [acceptedIn, (frames_nil frames hpending).2, hbatch, htaken]
  rfl

theorem durableMessages_straddle {d d' f : PublicLiveEnvelope} (h : Straddle d d' f) :
    durableMessages [d, f, d'] = [d, d'] ∧ durableMessages [d', f] = [d'] := by
  obtain ⟨hpos, hlt, hzero, -, -⟩ := h
  constructor
  · simp [durableMessages, hpos, hzero, hpos.trans hlt]
  · simp [durableMessages, hzero, hpos.trans hlt]

theorem arrived_straddle {cursor : Int} {d d' f : PublicLiveEnvelope} (h : Straddle d d' f)
    (hcursor : cursor < durableSequence d.seq)
    (hvalid : ∀ m ∈ [d, f, d'], classifyLiveEnvelopeSequence m ≠ .invalid) :
    Arrived (straddleBrowser cursor d d' f) := by
  refine ⟨hvalid, ?_, ?_⟩
  · show ∀ m ∈ durableMessages [d, f, d'], cursor < durableSequence m.seq
    rw [(durableMessages_straddle h).1]
    intro m hm
    have hlt := h.2.1
    rcases List.mem_pair.mp hm with rfl | rfl <;> omega
  · show Ascending _ (durableMessages [d, f, d'])
    rw [(durableMessages_straddle h).1]
    exact List.pairwise_pair.mpr h.2.1

theorem not_flushed_straddle {cursor : Int} {d d' f : PublicLiveEnvelope} (h : Straddle d d' f)
    (hcursor : cursor < durableSequence d.seq)
    (hvalid : classifyLiveEnvelopeSequence f ≠ .invalid) :
    ¬ FlushedInOrder (straddleBrowser cursor d d' f) := by
  intro hflushed
  obtain ⟨-, hkept, -⟩ := hflushed 3 (le_refl 3)
  rw [acceptedIn_straddle h hcursor hvalid] at hkept
  have hboth := (durableMessages_straddle h).2.symm.trans
    (hkept.trans (durableMessages_straddle h).1)
  exact absurd (congrArg List.length hboth) (by simp)

/-! ## The law -/

/-- The queues that come from a pool of envelopes, in any order of arrival, are flushed in
order if and only if the pool has no straddle. -/
theorem frames_keep_order_iff (pool : List PublicLiveEnvelope) (cursor : Int)
    (hvalid : ∀ m ∈ pool, classifyLiveEnvelopeSequence m ≠ .invalid)
    (hbeyond : ∀ m ∈ durableMessages pool, cursor < durableSequence m.seq) :
    (∀ b : Browser, b.lastAppliedEventSeq = cursor → b.pendingMessages ⊆ pool → Arrived b →
      FlushedInOrder b) ↔ NoStraddle pool := by
  constructor
  · intro h d hd d' hd' f hf hstraddle
    have hsub : [d, f, d'] ⊆ pool := by
      simp [List.cons_subset, hd, hd', hf]
    have hcursor : cursor < durableSequence d.seq :=
      hbeyond d (mem_durableMessages.mpr ⟨hd, hstraddle.1⟩)
    have harrived := arrived_straddle hstraddle hcursor fun m hm => hvalid m (hsub hm)
    exact not_flushed_straddle hstraddle hcursor (hvalid f hf)
      (h (straddleBrowser cursor d d' f) rfl hsub harrived)
  · intro hno b _ hsub harrived
    exact flushed_of_noStraddle harrived (noStraddle_subset hno hsub)

/-! ## Two durable envelopes and a best-effort one -/

def envelopeAt (seq : Option Int) (receivedAt : Int) : PublicLiveEnvelope :=
  { type := .event, event := "activity", seq, latestSeq := none, toSeq := none, serverTime := none
    receivedAt := some receivedAt, displayAt := none, data := none }

theorem straddle_of_times :
    Straddle (envelopeAt (some 5) 10) (envelopeAt (some 6) 1) (envelopeAt none 5) := by
  unfold Straddle
  decide

/-- The envelope with seq 5 is dropped behind the one with seq 6. -/
theorem durable_envelope_dropped : ¬ ∀ b : Browser, Arrived b → FlushedInOrder b := by
  intro h
  have hvalid : ∀ m ∈ [envelopeAt (some 5) 10, envelopeAt none 5, envelopeAt (some 6) 1],
      classifyLiveEnvelopeSequence m ≠ .invalid := by decide
  have harrived : Arrived (straddleBrowser 0 (envelopeAt (some 5) 10) (envelopeAt (some 6) 1)
      (envelopeAt none 5)) := arrived_straddle straddle_of_times (by decide) hvalid
  exact not_flushed_straddle straddle_of_times (by decide) (by decide) (h _ harrived)

/-- With times that go with the seqs, the queue is flushed in order. -/
theorem frames_keep_order_of_times :
    FlushedInOrder (straddleBrowser 0 (envelopeAt (some 5) 1) (envelopeAt (some 6) 10)
      (envelopeAt none 5)) := by
  have hvalid : ∀ m ∈ [envelopeAt (some 5) 1, envelopeAt none 5, envelopeAt (some 6) 10],
      classifyLiveEnvelopeSequence m ≠ .invalid := by decide
  have hno : NoStraddle [envelopeAt (some 5) 1, envelopeAt none 5, envelopeAt (some 6) 10] := by
    unfold NoStraddle Straddle
    decide
  refine (frames_keep_order_iff _ 0 hvalid (by decide)).mpr hno _ rfl (List.Subset.refl _) ?_
  exact ⟨hvalid, by decide, by unfold Ascending; decide⟩

end CartoLive.Theorems.FrameOrder
