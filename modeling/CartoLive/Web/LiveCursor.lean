import CartoLive.Web.EventRecovery

/-!
# The live queue of the browser

The pure functions of `liveCursor.ts` and `livePacing.ts`: what sequence an
envelope carries, how pending envelopes are ordered and cut, and which of them
a batch accepts behind the applied cursor.
-/

namespace CartoLive.Web

open CartoLive.Live

inductive LiveMessageType
  | hello
  | pong
  | lagged
  | event
  deriving DecidableEq

/-- `PublicLiveEnvelope`; a field that the server leaves out is `none`. -/
structure PublicLiveEnvelope where
  type : LiveMessageType
  event : String
  seq : Option Int
  latestSeq : Option Int
  toSeq : Option Int
  serverTime : Option Int
  receivedAt : Option Int
  displayAt : Option Int
  data : Option PublicData
  deriving DecidableEq

/-! ## Sequences -/

/-- `durableSequence`, `publicSequence` and `validSequence` of an optional number. -/
def durableSequence (value : Option Int) : Int := finiteSequence (value.getD 0)

inductive LiveEnvelopeSequence
  | durable (seq : Int)
  | fallback
  | invalid
  deriving DecidableEq

/-- `classifyLiveEnvelopeSequence`. -/
def classifyLiveEnvelopeSequence (message : PublicLiveEnvelope) : LiveEnvelopeSequence :=
  match message.seq with
  | none => .fallback
  | some value =>
    if value = 0 then .fallback
    else if value ≤ maxSafeInteger ∧ 0 < value then .durable value
    else .invalid

theorem durableSequence_nonneg (value : Option Int) : 0 ≤ durableSequence value := by
  unfold durableSequence finiteSequence
  split <;> omega

/-- An envelope is durable exactly when its sequence counts. -/
theorem classify_eq_durable_iff {message : PublicLiveEnvelope} {seq : Int} :
    classifyLiveEnvelopeSequence message = .durable seq ↔
      durableSequence message.seq = seq ∧ 0 < seq := by
  unfold classifyLiveEnvelopeSequence durableSequence finiteSequence
  cases message.seq with
  | none =>
    simp only [Option.getD_none]
    constructor
    · intro h
      cases h
    · rintro ⟨h, hpos⟩
      rw [if_neg (by omega)] at h
      omega
  | some value =>
    simp only [Option.getD_some]
    by_cases hzero : value = 0
    · rw [if_pos hzero, if_neg (by omega)]
      refine ⟨fun h => (by cases h), fun h => by omega⟩
    · rw [if_neg hzero]
      by_cases hsafe : value ≤ maxSafeInteger ∧ 0 < value
      · rw [if_pos hsafe, if_pos hsafe.symm, LiveEnvelopeSequence.durable.injEq]
        refine ⟨fun h => ⟨h, by omega⟩, And.left⟩
      · rw [if_neg hsafe, if_neg fun h => hsafe h.symm]
        refine ⟨fun h => (by cases h), fun h => by omega⟩

/-- A fallback envelope carries no sequence. -/
theorem durableSequence_of_fallback {message : PublicLiveEnvelope}
    (h : classifyLiveEnvelopeSequence message = .fallback) : durableSequence message.seq = 0 := by
  by_contra hne
  have hpos : 0 < durableSequence message.seq := by
    have := durableSequence_nonneg message.seq
    omega
  rw [classify_eq_durable_iff.mpr ⟨rfl, hpos⟩] at h
  cases h

theorem durableSequence_of_invalid {message : PublicLiveEnvelope}
    (h : classifyLiveEnvelopeSequence message = .invalid) : durableSequence message.seq = 0 := by
  by_contra hne
  have hpos : 0 < durableSequence message.seq := by
    have := durableSequence_nonneg message.seq
    omega
  rw [classify_eq_durable_iff.mpr ⟨rfl, hpos⟩] at h
  cases h

/-- `shouldQueueDurableLiveSequence`. -/
def shouldQueueDurableLiveSequence (seq lastAppliedSeq lastQueuedSeq : Int) : Bool :=
  seq ≤ maxSafeInteger ∧ max 0 (max lastAppliedSeq lastQueuedSeq) < seq

/-- `liveCursorResetTarget`. -/
def liveCursorResetTarget (serverLatestSeq priorAppliedSeq latestInboundSeq : Int) : Int :=
  let serverLatest := finiteSequence serverLatestSeq
  let priorApplied := finiteSequence priorAppliedSeq
  let latestInbound := finiteSequence latestInboundSeq
  if serverLatest < priorApplied ∧ priorApplied ≤ latestInbound then serverLatest
  else max serverLatest latestInbound

/-- `helloRequiresCursorResetProbe`. -/
def helloRequiresCursorResetProbe (helloSeq lastAppliedSeq : Int) : Bool :=
  let applied := finiteSequence lastAppliedSeq
  0 < applied ∧ finiteSequence helloSeq < applied

/-! ## Accepting a batch -/

structure IncreasingLiveEnvelopeBatch where
  accepted : List PublicLiveEnvelope
  cursor : Int
  invalid : Bool
  nonMonotonic : Bool

/-- The body of the loop of `takeIncreasingLiveEnvelopes`. -/
def IncreasingLiveEnvelopeBatch.take (batch : IncreasingLiveEnvelopeBatch)
    (message : PublicLiveEnvelope) : IncreasingLiveEnvelopeBatch :=
  match classifyLiveEnvelopeSequence message with
  | .invalid => { batch with invalid := true }
  | .fallback => { batch with accepted := batch.accepted ++ [message] }
  | .durable seq =>
    if seq = batch.cursor then batch
    else if seq < batch.cursor then { batch with nonMonotonic := true }
    else { batch with accepted := batch.accepted ++ [message], cursor := seq }

/-- `takeIncreasingLiveEnvelopes`. -/
def takeIncreasingLiveEnvelopes (messages : List PublicLiveEnvelope) (afterSeq : Int) :
    IncreasingLiveEnvelopeBatch :=
  messages.foldl IncreasingLiveEnvelopeBatch.take
    { accepted := [], cursor := max 0 afterSeq, invalid := false, nonMonotonic := false }

/-- `retainLiveEnvelopesAfterCursor`. -/
def retainLiveEnvelopesAfterCursor (messages : List PublicLiveEnvelope) (cursor : Int) :
    List PublicLiveEnvelope :=
  messages.filter fun message =>
    match classifyLiveEnvelopeSequence message with
    | .fallback => true
    | .durable seq => cursor < seq
    | .invalid => false

theorem mem_retain {messages : List PublicLiveEnvelope} {cursor : Int}
    {message : PublicLiveEnvelope} (h : message ∈ retainLiveEnvelopesAfterCursor messages cursor) :
    message ∈ messages ∧
      (0 < durableSequence message.seq → cursor < durableSequence message.seq) := by
  obtain ⟨hmem, hkept⟩ := List.mem_filter.mp h
  refine ⟨hmem, fun hpos => ?_⟩
  rw [classify_eq_durable_iff.mpr ⟨rfl, hpos⟩] at hkept
  exact of_decide_eq_true hkept

/-- Durable envelopes beyond the cursor are retained. -/
theorem mem_retain_of_lt {messages : List PublicLiveEnvelope} {cursor : Int}
    {message : PublicLiveEnvelope} (h : message ∈ messages)
    (hpos : 0 < durableSequence message.seq) (hlt : cursor < durableSequence message.seq) :
    message ∈ retainLiveEnvelopesAfterCursor messages cursor := by
  refine List.mem_filter.mpr ⟨h, ?_⟩
  rw [classify_eq_durable_iff.mpr ⟨rfl, hpos⟩]
  exact decide_eq_true hlt

/-- What a batch took from its messages. -/
structure Taken (messages : List PublicLiveEnvelope) (afterSeq : Int)
    (batch : IncreasingLiveEnvelopeBatch) : Prop where
  mem : ∀ m ∈ batch.accepted, m ∈ messages
  le : max 0 afterSeq ≤ batch.cursor
  seq_le : ∀ m ∈ messages, durableSequence m.seq ≤ batch.cursor
  lt : ∀ m ∈ batch.accepted, 0 < durableSequence m.seq → afterSeq < durableSequence m.seq
  ascending : (batch.accepted.filter fun m => 0 < durableSequence m.seq).Pairwise
    fun a b => durableSequence a.seq < durableSequence b.seq
  cursor_eq : batch.cursor = max 0 afterSeq ∨
    ∃ m ∈ batch.accepted, durableSequence m.seq = batch.cursor
  valid : (∀ m ∈ messages, classifyLiveEnvelopeSequence m ≠ .invalid) → batch.invalid = false

theorem taken_takeIncreasingLiveEnvelopes (messages : List PublicLiveEnvelope) (afterSeq : Int) :
    Taken messages afterSeq (takeIncreasingLiveEnvelopes messages afterSeq) := by
  induction messages using List.reverseRecOn with
  | nil =>
    exact
      { mem := by simp [takeIncreasingLiveEnvelopes], le := le_refl _, seq_le := by simp
        lt := by simp [takeIncreasingLiveEnvelopes]
        ascending := by simp [takeIncreasingLiveEnvelopes], cursor_eq := Or.inl rfl
        valid := fun _ => rfl }
  | append_singleton messages m ih =>
    have hstep : takeIncreasingLiveEnvelopes (messages ++ [m]) afterSeq =
        (takeIncreasingLiveEnvelopes messages afterSeq).take m := by
      simp [takeIncreasingLiveEnvelopes]
    generalize takeIncreasingLiveEnvelopes messages afterSeq = batch at ih hstep
    rw [hstep]
    have hbefore : ∀ x ∈ batch.accepted, x ∈ messages ++ [m] := fun x hx =>
      List.mem_append_left _ (ih.mem x hx)
    have hnonneg : 0 ≤ batch.cursor := (le_max_left 0 afterSeq).trans ih.le
    have hvalid : (∀ x ∈ messages ++ [m], classifyLiveEnvelopeSequence x ≠ .invalid) →
        batch.invalid = false := fun h => ih.valid fun x hx => h x (List.mem_append_left _ hx)
    have hle : durableSequence m.seq ≤ batch.cursor →
        ∀ x ∈ messages ++ [m], durableSequence x.seq ≤ batch.cursor := by
      intro hm x hx
      rcases List.mem_append.mp hx with hx | hx
      · exact ih.seq_le x hx
      · rw [List.mem_singleton.mp hx]
        exact hm
    unfold IncreasingLiveEnvelopeBatch.take
    cases hclass : classifyLiveEnvelopeSequence m with
    | invalid =>
      have hzero := durableSequence_of_invalid hclass
      exact { ih with
        mem := hbefore, seq_le := hle (by omega)
        valid := fun h => absurd hclass (h m (by simp)) }
    | fallback =>
      have hzero := durableSequence_of_fallback hclass
      have hmem : ∀ x ∈ batch.accepted ++ [m], x ∈ batch.accepted ∨ x = m := fun x hx =>
        (List.mem_append.mp hx).imp_right List.mem_singleton.mp
      exact { ih with
        mem := fun x hx => (hmem x hx).elim (hbefore x) fun heq => by simp [heq]
        seq_le := hle (by omega)
        lt := fun x hx hpos => by
          rcases hmem x hx with hx | rfl
          · exact ih.lt x hx hpos
          · omega
        ascending := by simpa [List.filter_append, hzero] using ih.ascending
        cursor_eq := ih.cursor_eq.imp_right fun ⟨x, hx, heq⟩ =>
          ⟨x, List.mem_append_left _ hx, heq⟩
        valid := hvalid }
    | durable seq =>
      obtain ⟨hseq, hpos⟩ := classify_eq_durable_iff.mp hclass
      dsimp only
      by_cases heq : seq = batch.cursor
      · rw [if_pos heq]
        exact { ih with mem := hbefore, seq_le := hle (by omega), valid := hvalid }
      · rw [if_neg heq]
        by_cases hlt : seq < batch.cursor
        · rw [if_pos hlt]
          exact { ih with mem := hbefore, seq_le := hle (by omega), valid := hvalid }
        · -- the message moves the cursor
          rw [if_neg hlt]
          have hmem : ∀ x ∈ batch.accepted ++ [m], x ∈ batch.accepted ∨ x = m := fun x hx =>
            (List.mem_append.mp hx).imp_right List.mem_singleton.mp
          have hold : ∀ x ∈ messages, durableSequence x.seq < seq := fun x hx => by
            have := ih.seq_le x hx
            omega
          have hafter := ih.le
          exact
            { mem := fun x hx => (hmem x hx).elim (hbefore x) fun heq => by simp [heq]
              le := by
                show max 0 afterSeq ≤ seq
                omega
              seq_le := fun x hx => by
                show durableSequence x.seq ≤ seq
                rcases List.mem_append.mp hx with hx | hx
                · exact (hold x hx).le
                · rw [List.mem_singleton.mp hx]
                  omega
              lt := fun x hx hxpos => by
                rcases hmem x hx with hx | rfl
                · exact ih.lt x hx hxpos
                · omega
              ascending := by
                have hkept : ([m].filter fun x => 0 < durableSequence x.seq) = [m] :=
                  List.filter_eq_self.mpr fun x hx => by
                    rw [List.mem_singleton.mp hx, hseq]
                    exact decide_eq_true hpos
                rw [List.filter_append, hkept]
                refine List.pairwise_append.mpr
                  ⟨ih.ascending, List.pairwise_singleton .., fun a ha b hb => ?_⟩
                rw [List.mem_singleton.mp hb, hseq]
                exact hold a (ih.mem a (List.mem_of_mem_filter ha))
              cursor_eq := Or.inr ⟨m, by simp, hseq⟩
              valid := hvalid }

/-- The envelopes of a list that are durable. -/
def durableMessages (messages : List PublicLiveEnvelope) : List PublicLiveEnvelope :=
  messages.filter fun message => 0 < durableSequence message.seq

theorem mem_durableMessages {messages : List PublicLiveEnvelope} {m : PublicLiveEnvelope} :
    m ∈ durableMessages messages ↔ m ∈ messages ∧ 0 < durableSequence m.seq := by
  simp [durableMessages]

/-- A batch whose durable envelopes are in order leaves out only those that the
cursor has passed. -/
theorem exists_accepted_of_sorted {messages : List PublicLiveEnvelope} {afterSeq : Int}
    (hsorted : (durableMessages messages).Pairwise fun a b =>
      durableSequence a.seq ≤ durableSequence b.seq)
    {m : PublicLiveEnvelope} (hm : m ∈ messages) (hpos : 0 < durableSequence m.seq)
    (hafter : afterSeq < durableSequence m.seq) :
    ∃ x ∈ (takeIncreasingLiveEnvelopes messages afterSeq).accepted,
      durableSequence x.seq = durableSequence m.seq := by
  induction messages using List.reverseRecOn with
  | nil => cases hm
  | append_singleton messages last ih =>
    rw [durableMessages, List.filter_append] at hsorted
    obtain ⟨hinit, -, hlast⟩ := List.pairwise_append.mp hsorted
    have hstep : takeIncreasingLiveEnvelopes (messages ++ [last]) afterSeq =
        (takeIncreasingLiveEnvelopes messages afterSeq).take last := by
      simp [takeIncreasingLiveEnvelopes]
    have htaken := taken_takeIncreasingLiveEnvelopes messages afterSeq
    -- nothing that was accepted is given up
    have hkeep : ∀ x ∈ (takeIncreasingLiveEnvelopes messages afterSeq).accepted,
        x ∈ ((takeIncreasingLiveEnvelopes messages afterSeq).take last).accepted := by
      intro x hx
      unfold IncreasingLiveEnvelopeBatch.take
      split
      · exact hx
      · exact List.mem_append_left _ hx
      · split
        · exact hx
        · split
          · exact hx
          · exact List.mem_append_left _ hx
    rw [hstep]
    rcases List.mem_append.mp hm with hin | hin
    · obtain ⟨x, hx, heq⟩ := ih hinit hin
      exact ⟨x, hkeep x hx, heq⟩
    · obtain rfl := List.mem_singleton.mp hin
      by_cases hcursor : (takeIncreasingLiveEnvelopes messages afterSeq).cursor <
          durableSequence m.seq
      · refine ⟨m, ?_, rfl⟩
        unfold IncreasingLiveEnvelopeBatch.take
        rw [classify_eq_durable_iff.mpr ⟨rfl, hpos⟩]
        dsimp only
        rw [if_neg (by omega), if_neg (by omega)]
        simp
      · -- the cursor stands at the sequence of an accepted envelope before it
        rcases htaken.cursor_eq with heq | ⟨x, hx, heq⟩
        · omega
        · have hxpos : 0 < durableSequence x.seq := by omega
          have := hlast x (mem_durableMessages.mpr ⟨htaken.mem x hx, hxpos⟩) m (by simp [hpos])
          exact ⟨x, hkeep x hx, by omega⟩

/-! ## Ordering the queue -/

def liveEnvelopeMaxBatchSize : Nat := 256
def liveEnvelopeMaxPending : Nat := 4096

/-- `liveEnvelopeDisplayAt`. -/
def liveEnvelopeDisplayAt (message : PublicLiveEnvelope) : Int :=
  (message.receivedAt <|> message.serverTime <|> message.displayAt).getD 0

/-- `compareLiveEnvelopes`. -/
def compareLiveEnvelopes (a b : PublicLiveEnvelope) : Int :=
  let aSeq := durableSequence a.seq
  let bSeq := durableSequence b.seq
  if 0 < aSeq ∧ 0 < bSeq then aSeq - bSeq
  else
    let byTime := liveEnvelopeDisplayAt a - liveEnvelopeDisplayAt b
    if byTime = 0 then aSeq - bSeq else byTime

/-- The comparator orders the items of a list; it need not when durable and
fallback envelopes are mixed. -/
structure Consistent (compare : PublicLiveEnvelope → PublicLiveEnvelope → Int)
    (l : List PublicLiveEnvelope) : Prop where
  total : ∀ a ∈ l, ∀ b ∈ l, compare a b ≤ 0 ∨ compare b a ≤ 0
  trans : ∀ a ∈ l, ∀ b ∈ l, ∀ c ∈ l, compare a b ≤ 0 → compare b c ≤ 0 → compare a c ≤ 0

/-- `Array.prototype.sort` with `compareLiveEnvelopes`. The result is a
permutation, in order when the comparator is consistent, and otherwise up to
the JavaScript engine. -/
structure EnvelopeSort where
  sort : List PublicLiveEnvelope → List PublicLiveEnvelope
  perm : ∀ l, (sort l).Perm l
  sorted : ∀ l, Consistent compareLiveEnvelopes l →
    (sort l).Pairwise fun a b => compareLiveEnvelopes a b ≤ 0

/-- Durable envelopes are compared by their sequences. -/
theorem compareLiveEnvelopes_durable {a b : PublicLiveEnvelope} (ha : 0 < durableSequence a.seq)
    (hb : 0 < durableSequence b.seq) :
    compareLiveEnvelopes a b = durableSequence a.seq - durableSequence b.seq :=
  if_pos ⟨ha, hb⟩

theorem consistent_of_durable {l : List PublicLiveEnvelope}
    (h : ∀ m ∈ l, 0 < durableSequence m.seq) : Consistent compareLiveEnvelopes l where
  total a ha b hb := by
    rw [compareLiveEnvelopes_durable (h a ha) (h b hb),
      compareLiveEnvelopes_durable (h b hb) (h a ha)]
    omega
  trans a ha b hb c hc hab hbc := by
    rw [compareLiveEnvelopes_durable (h a ha) (h b hb)] at hab
    rw [compareLiveEnvelopes_durable (h b hb) (h c hc)] at hbc
    rw [compareLiveEnvelopes_durable (h a ha) (h c hc)]
    omega

/-- Durable envelopes are sorted by their sequences. -/
theorem EnvelopeSort.sorted_durable (sorter : EnvelopeSort) {l : List PublicLiveEnvelope}
    (h : ∀ m ∈ l, 0 < durableSequence m.seq) :
    (sorter.sort l).Pairwise fun a b => durableSequence a.seq ≤ durableSequence b.seq := by
  refine (sorter.sorted l (consistent_of_durable h)).imp_of_mem fun {a b} ha hb hab => ?_
  rw [compareLiveEnvelopes_durable (h a ((sorter.perm l).mem_iff.mp ha))
    (h b ((sorter.perm l).mem_iff.mp hb))] at hab
  omega

/-- `capLiveEnvelopeQueue`. -/
def capLiveEnvelopeQueue (sorter : EnvelopeSort) (messages : List PublicLiveEnvelope) :
    List PublicLiveEnvelope :=
  if messages.length ≤ liveEnvelopeMaxPending then messages
  else (sorter.sort messages).drop (messages.length - liveEnvelopeMaxPending)

/-- `takeDueLiveEnvelopes`: the due messages and those left pending. -/
def takeDueLiveEnvelopes (sorter : EnvelopeSort) (messages : List PublicLiveEnvelope) :
    List PublicLiveEnvelope × List PublicLiveEnvelope :=
  let ordered := sorter.sort messages
  (ordered.take liveEnvelopeMaxBatchSize, ordered.drop liveEnvelopeMaxBatchSize)

theorem mem_takeDueLiveEnvelopes (sorter : EnvelopeSort) {messages : List PublicLiveEnvelope}
    {m : PublicLiveEnvelope} :
    m ∈ messages ↔
      m ∈ (takeDueLiveEnvelopes sorter messages).1 ∨
        m ∈ (takeDueLiveEnvelopes sorter messages).2 := by
  rw [← (sorter.perm messages).mem_iff, ← List.mem_append]
  exact (List.take_append_drop liveEnvelopeMaxBatchSize (sorter.sort messages)) ▸ Iff.rfl

end CartoLive.Web
