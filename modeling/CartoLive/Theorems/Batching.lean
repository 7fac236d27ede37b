import CartoLive.Lib.Recall
import CartoLive.Web.RouteCredits
import Mathlib.Algebra.GroupWithZero.Nat

/-!
# Batches of envelopes

Envelopes may be applied in one call or batch by batch. What depends on the cut is which
pulses are taken for repeated: a call knows the pulses that are stored when it begins and
those that it has accepted itself. A batch that no longer knows a pulse of an earlier batch
accepts it again, and counts it again on its routes.

## Main results

* `batching_keeps_view_iff` : the cut does not show if and only if every pulse that comes
  back is still stored when its batch begins.
-/

namespace CartoLive.Theorems.Batching

open CartoLive.Live CartoLive.Lib CartoLive.Web

/-- What a batch must not change: routes are seen without their buckets. -/
structure View where
  nodes : List PublicNode
  activity : List LiveActivity
  pulses : List LiveRoutePulse
  routeTraces : List RouteTraceHit
  latestSeq : Int
  seenSeqs : List Int
  routes : List PublicRoute
  deriving DecidableEq

def view (state : AppState) : View :=
  { nodes := state.nodes, activity := state.activity, pulses := state.pulses
    routeTraces := state.routeTraces, latestSeq := state.latestSeq, seenSeqs := state.seenSeqs
    routes := state.routes.map core }

/-- Envelopes that are applied batch by batch. -/
def batched (state : AppState) (batches : List (List LiveMessage)) (animate : Bool) : AppState :=
  batches.foldl (fun next batch => applyPublicEnvelopes next batch animate) state

/-! ## The pulses that are looked at -/

/-- What `rememberSeq` does. -/
def remembered (seqs : List Int) : Option Int → List Int
  | none => seqs
  | some seq => if seq ≤ 0 ∨ seq ∈ seqs then seqs else takeLast 1000 (seqs ++ [seq])

/-- The remembered seqs after an envelope. -/
def seqsAfter (seqs : List Int) (message : LiveMessage) : List Int :=
  if message.type = .event ∧ message.data.isSome then remembered seqs message.seq else seqs

/-- The pulse of a `routePulse` envelope. -/
def pulseOf (message : LiveMessage) : Option LiveRoutePulse :=
  match message.type, message.data with
  | .event, some (.routePulse data) => some (data.withEnvelopeTiming message)
  | _, _ => none

/-- The pulse of an envelope whose seq is not remembered. -/
def unseenPulse (seqs : List Int) (message : LiveMessage) : Option LiveRoutePulse :=
  if message.seq.any fun seq => seq ≠ 0 && seq ∈ seqs then none else pulseOf message

def unseenPulses : List Int → List LiveMessage → List LiveRoutePulse
  | _, [] => []
  | seqs, message :: messages =>
    (unseenPulse seqs message).toList ++ unseenPulses (seqsAfter seqs message) messages

/-- The unseen pulses of each batch. -/
def unseenBatches : List Int → List (List LiveMessage) → List (List LiveRoutePulse)
  | _, [] => []
  | seqs, batch :: batches =>
    unseenPulses seqs batch :: unseenBatches (batch.foldl seqsAfter seqs) batches

abbrev pulseID (pulse : LiveRoutePulse) : String := pulse.id

/-- Pulses that are put in front of the stored ones. -/
def stored {α : Type} (animate : Bool) (pulses accepted : List α) : List α :=
  accepted.foldl (fun pulses pulse => if animate then (pulse :: pulses).take 2000 else pulses) pulses

theorem stored_cons {α : Type} (animate : Bool) (pulses : List α) (pulse : α) (accepted : List α) :
    stored animate pulses (pulse :: accepted) =
      stored animate (if animate then (pulse :: pulses).take 2000 else pulses) accepted := rfl

/-- The identifiers of the stored pulses after a batch. -/
def storedAfter (animate : Bool) (ids : List String) (pulses : List LiveRoutePulse) :
    List String :=
  stored animate ids ((Keyed.firstOfEach pulseID ids pulses).map pulseID)

theorem unseenPulses_append (seqs : List Int) (messages more : List LiveMessage) :
    unseenPulses seqs (messages ++ more) =
      unseenPulses seqs messages ++ unseenPulses (messages.foldl seqsAfter seqs) more := by
  induction messages generalizing seqs with
  | nil => rfl
  | cons message messages ih =>
    rw [List.cons_append, unseenPulses, unseenPulses, ih, List.append_assoc, List.foldl_cons]

theorem flatten_unseenBatches (seqs : List Int) (batches : List (List LiveMessage)) :
    (unseenBatches seqs batches).flatten = unseenPulses seqs batches.flatten := by
  induction batches generalizing seqs with
  | nil => rfl
  | cons batch batches ih =>
    rw [unseenBatches, List.flatten_cons, List.flatten_cons, ih, unseenPulses_append]

theorem pulseOf_eq_some {message : LiveMessage} {pulse : LiveRoutePulse}
    (h : pulseOf message = some pulse) :
    ∃ data, message.data = some (.routePulse data) ∧ data.withEnvelopeTiming message = pulse := by
  unfold pulseOf at h
  split at h
  · rename_i data _ hdata
    exact ⟨data, hdata, Option.some.inj h⟩
  · exact absurd h (by simp)

theorem type_of_pulseOf {message : LiveMessage} {pulse : LiveRoutePulse}
    (h : pulseOf message = some pulse) : message.type = .event := by
  unfold pulseOf at h
  split at h
  · assumption
  · exact absurd h (by simp)

/-- An unseen pulse has the data of its envelope. -/
theorem data_of_mem_unseenPulses {seqs : List Int} {messages : List LiveMessage}
    {pulse : LiveRoutePulse} (h : pulse ∈ unseenPulses seqs messages) :
    ∃ message ∈ messages, ∃ data, message.data = some (.routePulse data) ∧
      data.withEnvelopeTiming message = pulse := by
  induction messages generalizing seqs with
  | nil => exact absurd h List.not_mem_nil
  | cons message messages ih =>
    rcases List.mem_append.mp h with h | h
    · have hpulse := Option.mem_toList.mp h
      unfold unseenPulse at hpulse
      split at hpulse
      · exact absurd hpulse (by simp)
      · exact ⟨message, List.mem_cons_self, pulseOf_eq_some hpulse⟩
    · obtain ⟨found, hfound, hdata⟩ := ih h
      exact ⟨found, List.mem_cons_of_mem _ hfound, hdata⟩

theorem mem_stored {α : Type} {animate : Bool} {pulses accepted : List α} {x : α}
    (h : x ∈ stored animate pulses accepted) : x ∈ pulses ∨ x ∈ accepted := by
  unfold stored at h
  induction accepted generalizing pulses with
  | nil => exact .inl h
  | cons pulse accepted ih =>
    rw [List.foldl_cons] at h
    rcases ih h with h | h
    · split at h
      · rcases List.mem_cons.mp (List.mem_of_mem_take h) with rfl | h
        · exact .inr List.mem_cons_self
        · exact .inl h
      · exact .inl h
    · exact .inr (List.mem_cons_of_mem pulse h)

theorem map_stored {α β : Type} (f : α → β) (animate : Bool) (pulses accepted : List α) :
    (stored animate pulses accepted).map f = stored animate (pulses.map f) (accepted.map f) := by
  unfold stored
  induction accepted generalizing pulses with
  | nil => rfl
  | cons pulse accepted ih =>
    rw [List.foldl_cons, ih, List.map_cons, List.foldl_cons]
    cases animate
    · rfl
    · simp only [if_true, List.map_take, List.map_cons]

theorem recollects_storedAfter (animate : Bool) :
    Keyed.Recollects pulseID (storedAfter animate) := by
  intro ids batch id hid
  rcases mem_stored hid with h | h
  · exact List.mem_append_left _ h
  · obtain ⟨pulse, hpulse, rfl⟩ := List.mem_map.mp h
    exact List.mem_append_right _ (List.mem_map_of_mem (Keyed.mem_of_mem_firstOfEach hpulse).1)

/-! ## One round of the loop -/

/-- An envelope that brings no unseen pulse. -/
def quiet (next : AppState) (message : LiveMessage) (animate : Bool) : AppState :=
  match pulseOf message with
  | some _ => withLatestSeq next (message.latestSeq <|> message.seq)
  | none => applyNonRouteEnvelope next message animate

/-- A pulse that is known. -/
def repeated (next : AppState) (message : LiveMessage) : AppState :=
  rememberSeq (withLatestSeq next (message.latestSeq <|> message.seq)) message.seq

/-- A pulse that is not known. -/
def accepted (next : AppState) (message : LiveMessage) (animate : Bool) (pulse : LiveRoutePulse) :
    AppState :=
  let serverTime := max next.serverTime (message.serverTime.getD pulse.heardAt)
  { next with
    pulses := if animate then (pulse :: next.pulses).take 2000 else next.pulses
    routeTraces := addRouteTraceHits next.routeTraces pulse serverTime
    serverTime : AppState }.mark message

theorem hasSeen_eq (state : AppState) (message : LiveMessage) :
    state.hasSeen message = message.seq.any fun seq => seq ≠ 0 && seq ∈ state.seenSeqs := by
  unfold AppState.hasSeen
  cases message.seq <;> rfl

theorem step_of_none {message : LiveMessage} (h : pulseOf message = none) (loop : EnvelopeLoop)
    (animate : Bool) :
    loop.step animate message =
      { loop with next := applyNonRouteEnvelope loop.next message animate } := by
  unfold EnvelopeLoop.step
  unfold pulseOf at h
  split
  · rename_i data htype hdata
    rw [htype, hdata] at h
    exact absurd h (by simp)
  · rfl

theorem step_of_some {message : LiveMessage} {pulse : LiveRoutePulse}
    (h : pulseOf message = some pulse) (loop : EnvelopeLoop) (animate : Bool) :
    loop.step animate message =
      if loop.next.hasSeen message then
        { loop with next := withLatestSeq loop.next (message.latestSeq <|> message.seq) }
      else if pulse.id ∈ loop.pulseIDs then { loop with next := repeated loop.next message }
      else
        { next := accepted loop.next message animate pulse
          pulseIDs := pulse.id :: loop.pulseIDs
          acceptedPulses := loop.acceptedPulses ++ [pulse] } := by
  obtain ⟨data, hdata, hpulse⟩ := pulseOf_eq_some h
  unfold EnvelopeLoop.step
  rw [type_of_pulseOf h, hdata, ← hpulse]
  rfl

/-- A round by what its envelope brings. -/
theorem step_eq (loop : EnvelopeLoop) (message : LiveMessage) (animate : Bool) :
    loop.step animate message =
      match unseenPulse loop.next.seenSeqs message with
      | none => { loop with next := quiet loop.next message animate }
      | some pulse =>
        if pulse.id ∈ loop.pulseIDs then { loop with next := repeated loop.next message }
        else
          { next := accepted loop.next message animate pulse
            pulseIDs := pulse.id :: loop.pulseIDs
            acceptedPulses := loop.acceptedPulses ++ [pulse] } := by
  unfold unseenPulse quiet
  rw [← hasSeen_eq]
  cases hpulse : pulseOf message with
  | none =>
    rw [step_of_none hpulse, ite_self]
  | some pulse =>
    rw [step_of_some hpulse]
    cases loop.next.hasSeen message <;> rfl

/-! ## What the rounds remember -/

theorem seenSeqs_rememberSeq (state : AppState) (seq : Option Int) :
    (rememberSeq state seq).seenSeqs = remembered state.seenSeqs seq := by
  unfold rememberSeq remembered
  cases seq with
  | none => rfl
  | some seq =>
    dsimp only
    split
    · rfl
    · dsimp only

theorem seenSeqs_withLatestSeq (state : AppState) (seq : Option Int) :
    (withLatestSeq state seq).seenSeqs = state.seenSeqs :=
  (withLatestSeq_frame state seq).2.2.2.2.2.2

theorem seenSeqs_mark (state : AppState) (message : LiveMessage) :
    (state.mark message).seenSeqs = remembered state.seenSeqs message.seq := by
  unfold AppState.mark
  rw [seenSeqs_rememberSeq, seenSeqs_withLatestSeq]

theorem remembered_of_hasSeen {state : AppState} {message : LiveMessage}
    (h : state.hasSeen message = true) :
    remembered state.seenSeqs message.seq = state.seenSeqs := by
  rw [hasSeen_eq] at h
  unfold remembered
  cases hseq : message.seq with
  | none => rfl
  | some seq =>
    rw [hseq] at h
    have hmem : seq ∈ state.seenSeqs := by
      simp only [Option.any_some, Bool.and_eq_true, decide_eq_true_eq] at h
      exact h.2
    exact if_pos (.inr hmem)

theorem seqsAfter_of_hasSeen {state : AppState} {message : LiveMessage}
    (h : state.hasSeen message = true) :
    seqsAfter state.seenSeqs message = state.seenSeqs := by
  unfold seqsAfter
  rw [remembered_of_hasSeen h, ite_self]

theorem seqsAfter_of_data {message : LiveMessage} {data : LiveData} (htype : message.type = .event)
    (hdata : message.data = some data) (seqs : List Int) :
    seqsAfter seqs message = remembered seqs message.seq := by
  unfold seqsAfter
  rw [if_pos ⟨htype, by rw [hdata]; rfl⟩]

theorem seqsAfter_of_pulse {message : LiveMessage} {pulse : LiveRoutePulse}
    (h : pulseOf message = some pulse) (seqs : List Int) :
    seqsAfter seqs message = remembered seqs message.seq := by
  obtain ⟨data, hdata, -⟩ := pulseOf_eq_some h
  exact seqsAfter_of_data (type_of_pulseOf h) hdata seqs

theorem applyNonRouteEnvelope_remembers {message : LiveMessage} (h : pulseOf message = none)
    (state : AppState) (animate : Bool) :
    (applyNonRouteEnvelope state message animate).pulses = state.pulses ∧
      (applyNonRouteEnvelope state message animate).seenSeqs =
        seqsAfter state.seenSeqs message := by
  unfold applyNonRouteEnvelope
  by_cases htype : message.type = .event
  · rw [if_neg (not_not.mpr htype)]
    split
    · rename_i hseen
      rw [seenSeqs_withLatestSeq, seqsAfter_of_hasSeen hseen]
      exact ⟨(withLatestSeq_frame _ _).2.2.2.2.1, rfl⟩
    · split
      · rename_i node hdata
        rw [seqsAfter_of_data htype hdata]
        exact ⟨mark_pulses _ _, seenSeqs_mark _ _⟩
      · rename_i data hdata
        rw [seqsAfter_of_data htype hdata]
        dsimp only
        split <;> exact ⟨mark_pulses _ _, seenSeqs_mark _ _⟩
      · rename_i hnode hactivity
        refine ⟨rfl, ?_⟩
        unfold seqsAfter
        rw [if_neg]
        rintro ⟨-, hdata⟩
        unfold pulseOf at h
        rw [htype] at h
        match hsome : message.data, hdata with
        | some (.nodeUpdate node), _ => exact hnode node hsome
        | some (.activity data), _ => exact hactivity data hsome
        | some (.routePulse data), _ =>
          rw [hsome] at h
          exact absurd h (by simp)
  · rw [if_pos htype, seenSeqs_withLatestSeq]
    unfold seqsAfter
    rw [if_neg fun hboth => htype hboth.1]
    exact ⟨(withLatestSeq_frame _ _).2.2.2.2.1, rfl⟩

theorem seenSeqs_quiet (next : AppState) (message : LiveMessage) (animate : Bool)
    (h : unseenPulse next.seenSeqs message = none) :
    (quiet next message animate).seenSeqs = seqsAfter next.seenSeqs message ∧
      (quiet next message animate).pulses = next.pulses := by
  unfold quiet
  cases hpulse : pulseOf message with
  | none => exact (applyNonRouteEnvelope_remembers hpulse next animate).symm
  | some pulse =>
    have hseen : next.hasSeen message = true := by
      unfold unseenPulse at h
      rw [← hasSeen_eq, hpulse] at h
      by_contra hnot
      rw [if_neg hnot] at h
      exact absurd h (by simp)
    rw [seqsAfter_of_hasSeen hseen]
    exact ⟨seenSeqs_withLatestSeq _ _, (withLatestSeq_frame _ _).2.2.2.2.1⟩

theorem pulseOf_of_unseen {seqs : List Int} {message : LiveMessage} {pulse : LiveRoutePulse}
    (h : unseenPulse seqs message = some pulse) : pulseOf message = some pulse := by
  unfold unseenPulse at h
  split at h
  · exact absurd h (by simp)
  · exact h

/-- The remembered seqs do not depend on which pulses are accepted. -/
theorem seenSeqs_step (loop : EnvelopeLoop) (message : LiveMessage) (animate : Bool) :
    (loop.step animate message).next.seenSeqs = seqsAfter loop.next.seenSeqs message := by
  rw [step_eq]
  cases hpulse : unseenPulse loop.next.seenSeqs message with
  | none => exact (seenSeqs_quiet loop.next message animate hpulse).1
  | some pulse =>
    rw [seqsAfter_of_pulse (pulseOf_of_unseen hpulse)]
    dsimp only
    split
    · unfold repeated
      rw [seenSeqs_rememberSeq, seenSeqs_withLatestSeq]
    · exact seenSeqs_mark _ _

theorem seenSeqs_foldl_step (messages : List LiveMessage) (loop : EnvelopeLoop) (animate : Bool) :
    (messages.foldl (EnvelopeLoop.step animate) loop).next.seenSeqs =
      messages.foldl seqsAfter loop.next.seenSeqs := by
  induction messages generalizing loop with
  | nil => rfl
  | cons message messages ih => rw [List.foldl_cons, List.foldl_cons, ih, seenSeqs_step]

/-- A call accepts the first of each pulse that it does not know. -/
theorem acceptedPulses_foldl_step (messages : List LiveMessage) (loop : EnvelopeLoop)
    (animate : Bool) :
    (messages.foldl (EnvelopeLoop.step animate) loop).acceptedPulses = loop.acceptedPulses ++
      Keyed.firstOfEach pulseID loop.pulseIDs (unseenPulses loop.next.seenSeqs messages) := by
  induction messages generalizing loop with
  | nil => exact (List.append_nil _).symm
  | cons message messages ih =>
    rw [List.foldl_cons, ih, seenSeqs_step, unseenPulses, step_eq]
    cases unseenPulse loop.next.seenSeqs message with
    | none => rfl
    | some pulse =>
      dsimp only
      rw [Option.toList_some, List.singleton_append, Keyed.firstOfEach]
      by_cases hknown : pulse.id ∈ loop.pulseIDs
      · rw [if_pos hknown, if_pos hknown]
      · rw [if_neg hknown, if_neg hknown, List.append_assoc]
        rfl

theorem mem_pulseIDs_foldl_step (messages : List LiveMessage) (loop : EnvelopeLoop)
    (animate : Bool) (id : String) :
    id ∈ (messages.foldl (EnvelopeLoop.step animate) loop).pulseIDs ↔
      id ∈ loop.pulseIDs ++ (unseenPulses loop.next.seenSeqs messages).map pulseID := by
  induction messages generalizing loop with
  | nil => simp [unseenPulses]
  | cons message messages ih =>
    rw [List.foldl_cons, ih, seenSeqs_step, unseenPulses, step_eq]
    cases unseenPulse loop.next.seenSeqs message with
    | none => rfl
    | some pulse =>
      dsimp only
      rw [Option.toList_some, List.singleton_append, List.map_cons, List.mem_append,
        List.mem_append, List.mem_cons]
      by_cases hknown : pulse.id ∈ loop.pulseIDs
      · rw [if_pos hknown]
        refine ⟨fun h => h.imp_right .inr, ?_⟩
        rintro (h | h | h)
        · exact .inl h
        · exact .inl (h ▸ hknown)
        · exact .inr h
      · rw [if_neg hknown, List.mem_cons, or_assoc, or_left_comm]

theorem pulses_foldl_step (messages : List LiveMessage) (loop : EnvelopeLoop) (animate : Bool) :
    (messages.foldl (EnvelopeLoop.step animate) loop).next.pulses =
      stored animate loop.next.pulses (Keyed.firstOfEach pulseID loop.pulseIDs
        (unseenPulses loop.next.seenSeqs messages)) := by
  induction messages generalizing loop with
  | nil => rfl
  | cons message messages ih =>
    rw [List.foldl_cons, ih, seenSeqs_step, unseenPulses, step_eq]
    cases hpulse : unseenPulse loop.next.seenSeqs message with
    | none =>
      dsimp only
      rw [(seenSeqs_quiet loop.next message animate hpulse).2]
      rfl
    | some pulse =>
      dsimp only
      rw [Option.toList_some, List.singleton_append, Keyed.firstOfEach]
      by_cases hknown : pulseID pulse ∈ loop.pulseIDs
      · rw [if_pos hknown, if_pos hknown]
        dsimp only
        unfold repeated
        rw [(rememberSeq_frame _ _).2.2.2.2.1, (withLatestSeq_frame _ _).2.2.2.2.1]
      · rw [if_neg hknown, if_neg hknown, stored_cons]
        dsimp only
        unfold accepted
        rw [mark_pulses]

/-! ## The state without its routes -/

/-- The part of the state that the routes do not belong to, and that they do not change. -/
def strip (state : AppState) : AppState :=
  { state with
    stats := none, routes := [], routeIndex := fun _ => none, routeMaxPacketCount := 1
    routeTopologyRevision := 0, routeTrafficRevision := 0, routeVisualRevision := 0 }

theorem strip_withLatestSeq (state : AppState) (seq : Option Int) :
    strip (withLatestSeq state seq) = withLatestSeq (strip state) seq := by
  unfold withLatestSeq
  cases seq with
  | none => rfl
  | some seq =>
    dsimp only
    by_cases h : seq = 0 ∨ seq ≤ state.latestSeq
    · rw [if_pos h, if_pos (show seq = 0 ∨ seq ≤ (strip state).latestSeq from h)]
    · rw [if_neg h, if_neg (show ¬ (seq = 0 ∨ seq ≤ (strip state).latestSeq) from h)]
      rfl

theorem strip_rememberSeq (state : AppState) (seq : Option Int) :
    strip (rememberSeq state seq) = rememberSeq (strip state) seq := by
  unfold rememberSeq
  cases seq with
  | none => rfl
  | some seq =>
    dsimp only
    by_cases h : seq ≤ 0 ∨ seq ∈ state.seenSeqs
    · rw [if_pos h, if_pos (show seq ≤ 0 ∨ seq ∈ (strip state).seenSeqs from h)]
    · rw [if_neg h, if_neg (show ¬ (seq ≤ 0 ∨ seq ∈ (strip state).seenSeqs) from h)]
      simp only [strip]

theorem strip_mark (state : AppState) (message : LiveMessage) :
    strip (state.mark message) = (strip state).mark message := by
  unfold AppState.mark
  rw [strip_rememberSeq, strip_withLatestSeq]
  rfl

theorem strip_applyNonRouteEnvelope (state : AppState) (message : LiveMessage) (animate : Bool) :
    strip (applyNonRouteEnvelope state message animate) =
      applyNonRouteEnvelope (strip state) message animate := by
  have hseen : (strip state).hasSeen message = state.hasSeen message := rfl
  unfold applyNonRouteEnvelope
  by_cases htype : message.type = .event
  · rw [if_neg (not_not.mpr htype), if_neg (not_not.mpr htype), hseen]
    split
    · exact strip_withLatestSeq _ _
    · split
      · exact strip_mark _ _
      · dsimp only
        split
        · rename_i hknown
          rw [if_pos (show ((strip state).activity.any _) = true from hknown)]
          exact strip_mark _ _
        · rename_i hnew
          rw [if_neg (show ¬ ((strip state).activity.any _) = true from hnew)]
          exact strip_mark _ _
      · rfl
  · rw [if_pos htype, if_pos htype]
    exact strip_withLatestSeq _ _

theorem strip_quiet (next : AppState) (message : LiveMessage) (animate : Bool) :
    strip (quiet next message animate) = quiet (strip next) message animate := by
  unfold quiet
  cases pulseOf message with
  | none => exact strip_applyNonRouteEnvelope _ _ _
  | some pulse => exact strip_withLatestSeq _ _

theorem strip_repeated (next : AppState) (message : LiveMessage) :
    strip (repeated next message) = repeated (strip next) message := by
  unfold repeated
  rw [strip_rememberSeq, strip_withLatestSeq]

theorem strip_accepted (next : AppState) (message : LiveMessage) (animate : Bool)
    (pulse : LiveRoutePulse) :
    strip (accepted next message animate pulse) = accepted (strip next) message animate pulse := by
  unfold accepted
  rw [strip_mark]
  simp only [strip]

def stripLoop (loop : EnvelopeLoop) : EnvelopeLoop := { loop with next := strip loop.next }

theorem stripLoop_step (loop : EnvelopeLoop) (message : LiveMessage) (animate : Bool) :
    stripLoop (loop.step animate message) = (stripLoop loop).step animate message := by
  have hseqs : (stripLoop loop).next.seenSeqs = loop.next.seenSeqs := rfl
  rw [step_eq, step_eq, hseqs]
  cases unseenPulse loop.next.seenSeqs message with
  | none =>
    dsimp only [stripLoop]
    rw [strip_quiet]
  | some pulse =>
    dsimp only
    by_cases hknown : pulse.id ∈ loop.pulseIDs
    · rw [if_pos hknown, if_pos (show pulse.id ∈ (stripLoop loop).pulseIDs from hknown)]
      dsimp only [stripLoop]
      rw [strip_repeated]
    · rw [if_neg hknown, if_neg (show pulse.id ∉ (stripLoop loop).pulseIDs from hknown)]
      dsimp only [stripLoop]
      rw [strip_accepted]

theorem stripLoop_foldl_step (messages : List LiveMessage) (loop : EnvelopeLoop)
    (animate : Bool) :
    stripLoop (messages.foldl (EnvelopeLoop.step animate) loop) =
      messages.foldl (EnvelopeLoop.step animate) (stripLoop loop) := by
  induction messages generalizing loop with
  | nil => rfl
  | cons message messages ih => rw [List.foldl_cons, List.foldl_cons, ih, stripLoop_step]

/-- Apart from the routes, a call is its loop. -/
theorem strip_applyPublicEnvelopes (state : AppState) (messages : List LiveMessage)
    (animate : Bool) :
    strip (applyPublicEnvelopes state messages animate) =
      ((strip state).loopOver messages animate).next := by
  have hnext : strip (applyPublicEnvelopes state messages animate) =
      strip (state.loopOver messages animate).next := by
    rw [applyPublicEnvelopes_eq]
    split <;> rfl
  rw [hnext]
  exact congrArg EnvelopeLoop.next (stripLoop_foldl_step messages state.startLoop animate)

/-! ## Two loops side by side -/

/-- Two loops in the same state that take the same pulses for repeated stay in the same state. -/
theorem next_foldl_step_eq {messages : List LiveMessage} {whole batch : EnvelopeLoop}
    {animate : Bool} (hnext : whole.next = batch.next)
    (hknown : ∀ pulse ∈ unseenPulses batch.next.seenSeqs messages,
      pulse.id ∈ whole.pulseIDs ↔ pulse.id ∈ batch.pulseIDs) :
    (messages.foldl (EnvelopeLoop.step animate) whole).next =
      (messages.foldl (EnvelopeLoop.step animate) batch).next := by
  induction messages generalizing whole batch with
  | nil => exact hnext
  | cons message messages ih =>
    rw [unseenPulses] at hknown
    have hlater : ∀ pulse ∈ unseenPulses (seqsAfter batch.next.seenSeqs message) messages,
        pulse.id ∈ whole.pulseIDs ↔ pulse.id ∈ batch.pulseIDs := fun pulse hpulse =>
      hknown pulse (List.mem_append_right _ hpulse)
    rw [List.foldl_cons, List.foldl_cons]
    refine ih ?_ ?_
    · rw [step_eq, step_eq, hnext]
      cases hunseen : unseenPulse batch.next.seenSeqs message with
      | none => rfl
      | some pulse =>
        have hsame := hknown pulse (by rw [hunseen]; exact List.mem_cons_self)
        dsimp only
        by_cases hmem : pulse.id ∈ batch.pulseIDs
        · rw [if_pos hmem, if_pos (hsame.mpr hmem)]
        · rw [if_neg hmem, if_neg fun h => hmem (hsame.mp h)]
    · intro pulse hpulse
      rw [seenSeqs_step] at hpulse
      rw [step_eq, step_eq, hnext]
      cases hunseen : unseenPulse batch.next.seenSeqs message with
      | none => exact hlater pulse hpulse
      | some first =>
        have hsame := hknown first (by rw [hunseen]; exact List.mem_cons_self)
        dsimp only
        by_cases hmem : first.id ∈ batch.pulseIDs
        · rw [if_pos hmem, if_pos (hsame.mpr hmem)]
          exact hlater pulse hpulse
        · rw [if_neg hmem, if_neg fun h => hmem (hsame.mp h)]
          dsimp only
          rw [List.mem_cons, List.mem_cons, hlater pulse hpulse]

/-- The identifiers of the stored pulses. -/
def storedIDs (state : AppState) : List String := state.pulses.map pulseID

theorem storedIDs_loopOver (state : AppState) (messages : List LiveMessage) (animate : Bool) :
    storedIDs (state.loopOver messages animate).next =
      storedAfter animate (storedIDs state) (unseenPulses state.seenSeqs messages) := by
  unfold storedIDs AppState.loopOver storedAfter
  rw [pulses_foldl_step, map_stored]
  rfl

/-- Batches that recall leave the state that one call leaves, apart from the routes. -/
theorem next_batches_eq {batches : List (List LiveMessage)} {whole : EnvelopeLoop}
    {state : AppState} {known : List String} {animate : Bool} (hnext : whole.next = state)
    (hknown : ∀ id, id ∈ whole.pulseIDs ↔ id ∈ known) (hstored : storedIDs state ⊆ known)
    (h : Keyed.Recalls pulseID (storedAfter animate) (storedIDs state) known
      (unseenBatches state.seenSeqs batches)) :
    (batches.flatten.foldl (EnvelopeLoop.step animate) whole).next =
      batches.foldl (fun next batch => (next.loopOver batch animate).next) state := by
  induction batches generalizing whole state known with
  | nil => exact hnext
  | cons batch batches ih =>
    obtain ⟨hbatch, hrest⟩ := h
    have hids := storedIDs_loopOver state batch animate
    have hseqs : (state.loopOver batch animate).next.seenSeqs = batch.foldl seqsAfter state.seenSeqs :=
      seenSeqs_foldl_step batch state.startLoop animate
    have hnext' : (batch.foldl (EnvelopeLoop.step animate) whole).next =
        (state.loopOver batch animate).next := by
      refine next_foldl_step_eq hnext fun pulse hpulse => ?_
      rw [hknown]
      exact ⟨hbatch pulse hpulse, fun hmem => hstored hmem⟩
    have hknown' : ∀ id, id ∈ (batch.foldl (EnvelopeLoop.step animate) whole).pulseIDs ↔
        id ∈ known ++ (unseenPulses state.seenSeqs batch).map pulseID := by
      intro id
      rw [mem_pulseIDs_foldl_step, List.mem_append, List.mem_append, hknown, hnext]
    rw [List.flatten_cons, List.foldl_append, List.foldl_cons]
    refine ih hnext' hknown' ?_ ?_
    · rw [hids]
      exact (recollects_storedAfter animate).subset hstored _
    · rw [hids, hseqs]
      exact hrest

/-! ## The routes of the batches -/

theorem storedIDs_applyPublicEnvelopes (state : AppState) (batch : List LiveMessage)
    (animate : Bool) :
    storedIDs (applyPublicEnvelopes state batch animate) =
      storedAfter animate (storedIDs state) (unseenPulses state.seenSeqs batch) := by
  have hstrip := congrArg storedIDs (strip_applyPublicEnvelopes state batch animate)
  exact hstrip.trans (storedIDs_loopOver (strip state) batch animate)

theorem seenSeqs_applyPublicEnvelopes (state : AppState) (batch : List LiveMessage)
    (animate : Bool) :
    (applyPublicEnvelopes state batch animate).seenSeqs = batch.foldl seqsAfter state.seenSeqs := by
  have hstrip := congrArg AppState.seenSeqs (strip_applyPublicEnvelopes state batch animate)
  exact hstrip.trans (seenSeqs_foldl_step batch (strip state).startLoop animate)

theorem acceptedPulses_loopOver (state : AppState) (batch : List LiveMessage) (animate : Bool) :
    (state.loopOver batch animate).acceptedPulses =
      Keyed.firstOfEach pulseID (storedIDs state) (unseenPulses state.seenSeqs batch) := by
  unfold AppState.loopOver
  rw [acceptedPulses_foldl_step]
  rfl

theorem batched_cons (state : AppState) (batch : List LiveMessage)
    (batches : List (List LiveMessage)) (animate : Bool) :
    batched state (batch :: batches) animate =
      batched (applyPublicEnvelopes state batch animate) batches animate := rfl

/-- The pulses that the batches accept. -/
def keptPulses (animate : Bool) (state : AppState) (batches : List (List LiveMessage)) :
    List LiveRoutePulse :=
  Keyed.keptIn pulseID (storedAfter animate) (storedIDs state)
    (unseenBatches state.seenSeqs batches)

theorem keptPulses_cons (animate : Bool) (state : AppState) (batch : List LiveMessage)
    (batches : List (List LiveMessage)) :
    keptPulses animate state (batch :: batches) =
      (state.loopOver batch animate).acceptedPulses ++
        keptPulses animate (applyPublicEnvelopes state batch animate) batches := by
  unfold keptPulses
  rw [unseenBatches, Keyed.keptIn, acceptedPulses_loopOver, storedIDs_applyPublicEnvelopes,
    seenSeqs_applyPublicEnvelopes]

theorem pulseSegments_append (pulses more : List LiveRoutePulse) :
    pulseSegments (pulses ++ more) = pulseSegments pulses ++ pulseSegments more :=
  List.flatMap_append

/-- Every accepted pulse counts on its routes once. -/
theorem core_batched {state : AppState} (h : RoutesSound state.routePart)
    (batches : List (List LiveMessage)) (animate : Bool) :
    (batched state batches animate).routes.map core =
      (pulseSegments (keptPulses animate state batches)).foldl creditHit
        (state.routes.map core) := by
  induction batches generalizing state with
  | nil => rfl
  | cons batch batches ih =>
    have hroutes : (applyPublicEnvelopes state batch animate).routes =
        (state.routePart.upsert (state.loopOver batch animate).acceptedPulses).routes :=
      congrArg RoutePart.routes (routePart_applyPublicEnvelopes state batch animate)
    rw [batched_cons, ih (h.applyPublicEnvelopes batch animate), keptPulses_cons,
      pulseSegments_append, List.foldl_append, hroutes, h.core_upsert]
    rfl

theorem strip_batched (state : AppState) (batches : List (List LiveMessage)) (animate : Bool) :
    strip (batched state batches animate) =
      batches.foldl (fun next batch => (next.loopOver batch animate).next) (strip state) := by
  induction batches generalizing state with
  | nil => rfl
  | cons batch batches ih => rw [batched_cons, ih, strip_applyPublicEnvelopes, List.foldl_cons]

theorem view_eq {state other : AppState} (h : strip state = strip other)
    (hroutes : state.routes.map core = other.routes.map core) : view state = view other := by
  have hnodes := congrArg AppState.nodes h
  have hactivity := congrArg AppState.activity h
  have hpulses := congrArg AppState.pulses h
  have htraces := congrArg AppState.routeTraces h
  have hlatest := congrArg AppState.latestSeq h
  have hseqs := congrArg AppState.seenSeqs h
  dsimp only [strip] at hnodes hactivity hpulses htraces hlatest hseqs
  unfold view
  rw [hnodes, hactivity, hpulses, htraces, hlatest, hseqs, hroutes]

/-! ## The cut shows when a pulse is forgotten -/

/-- Every pulse that comes back in a later batch is still stored when that batch begins. -/
def Remembers (state : AppState) (batches : List (List LiveMessage)) (animate : Bool) : Prop :=
  Keyed.Recalls pulseID (storedAfter animate) (storedIDs state) (storedIDs state)
    (unseenBatches state.seenSeqs batches)

instance (state : AppState) (batches : List (List LiveMessage)) (animate : Bool) :
    Decidable (Remembers state batches animate) :=
  Keyed.decidableRecalls pulseID (storedAfter animate) (storedIDs state) (storedIDs state) _

/-- One call accepts the first of each pulse that is not stored. -/
theorem keptPulses_singleton (animate : Bool) (state : AppState)
    (batches : List (List LiveMessage)) :
    keptPulses animate state [batches.flatten] =
      Keyed.firstOfEach pulseID (storedIDs state)
        (unseenBatches state.seenSeqs batches).flatten := by
  rw [flatten_unseenBatches]
  exact List.append_nil _

theorem view_batched_of_remembers {state : AppState} (h : RoutesSound state.routePart)
    {batches : List (List LiveMessage)} {animate : Bool}
    (hremembers : Remembers state batches animate) :
    view (batched state batches animate) =
      view (applyPublicEnvelopes state batches.flatten animate) := by
  have hsingle : applyPublicEnvelopes state batches.flatten animate =
      batched state [batches.flatten] animate := rfl
  have hnext : ((strip state).loopOver batches.flatten animate).next =
      batches.foldl (fun next batch => (next.loopOver batch animate).next) (strip state) :=
    next_batches_eq rfl (fun _ => Iff.rfl) (List.Subset.refl _) hremembers
  refine view_eq ?_ ?_
  · rw [strip_batched, strip_applyPublicEnvelopes, hnext]
  · rw [hsingle, core_batched h, core_batched h, keptPulses_singleton]
    unfold keptPulses
    rw [Keyed.keptIn_eq_of_recalls (recollects_storedAfter animate) (List.Subset.refl _)
      hremembers]

theorem length_pulseSegments (pulses : List LiveRoutePulse) :
    (pulseSegments pulses).length = (pulses.map fun pulse => pulse.segments.length).sum := by
  unfold pulseSegments
  rw [List.length_flatMap]
  simp only [List.length_map]

theorem packetTotal_batched {state : AppState} (h : RoutesSound state.routePart)
    (batches : List (List LiveMessage)) (animate : Bool) :
    packetTotal (batched state batches animate).routes = packetTotal state.routes +
      ((keptPulses animate state batches).map fun pulse => pulse.segments.length).sum := by
  have hnodup : ((state.routes.map core).map PublicRoute.id).Nodup := by
    rw [List.map_map]
    exact h.indexes.nodup
  rw [← packetTotal_map_core, core_batched h, packetTotal_foldl_creditHit _ hnodup,
    packetTotal_map_core, length_pulseSegments]

/-- Batches that show the same routes have not forgotten a pulse. -/
theorem remembers_of_view {state : AppState} (h : RoutesSound state.routePart)
    {batches : List (List LiveMessage)} {animate : Bool}
    (hsegments : ∀ message ∈ batches.flatten, ∀ data,
      message.data = some (.routePulse data) → data.segments ≠ [])
    (hview : view (batched state batches animate) =
      view (applyPublicEnvelopes state batches.flatten animate)) :
    Remembers state batches animate := by
  have hpos : ∀ pulses ∈ unseenBatches state.seenSeqs batches, ∀ pulse ∈ pulses,
      0 < pulse.segments.length := by
    intro pulses hpulses pulse hpulse
    have hmem : pulse ∈ unseenPulses state.seenSeqs batches.flatten := by
      rw [← flatten_unseenBatches]
      exact List.mem_flatten.mpr ⟨pulses, hpulses, hpulse⟩
    obtain ⟨message, hmessage, data, hdata, rfl⟩ := data_of_mem_unseenPulses hmem
    exact List.length_pos_iff.mpr (hsegments message hmessage data hdata)
  have hsingle : applyPublicEnvelopes state batches.flatten animate =
      batched state [batches.flatten] animate := rfl
  have htotal : packetTotal (batched state batches animate).routes =
      packetTotal (applyPublicEnvelopes state batches.flatten animate).routes := by
    rw [← packetTotal_map_core, ← packetTotal_map_core (applyPublicEnvelopes _ _ _).routes]
    exact congrArg packetTotal (congrArg View.routes hview)
  rw [hsingle, packetTotal_batched h, packetTotal_batched h, keptPulses_singleton] at htotal
  refine Keyed.recalls_of_weight (fun pulse : LiveRoutePulse => pulse.segments.length)
    (recollects_storedAfter animate) (List.Subset.refl _) hpos ?_
  unfold keptPulses at htotal
  omega

/-- Batches leave what one call leaves if they remember the pulses that come back; when
every pulse has a segment, only then. -/
theorem batching_keeps_view_iff {state : AppState} (h : RoutesSound state.routePart)
    (batches : List (List LiveMessage)) (animate : Bool) :
    (Remembers state batches animate → view (batched state batches animate) =
      view (applyPublicEnvelopes state batches.flatten animate)) ∧
    ((∀ message ∈ batches.flatten, ∀ data,
        message.data = some (.routePulse data) → data.segments ≠ []) →
      (view (batched state batches animate) =
        view (applyPublicEnvelopes state batches.flatten animate) ↔
          Remembers state batches animate)) :=
  ⟨view_batched_of_remembers h, fun hsegments =>
    ⟨remembers_of_view h hsegments, view_batched_of_remembers h⟩⟩

/-! ## A pulse that comes back after the cut -/

/-- The seqs are positive and increase. -/
def IncreasingSeqs (messages : List LiveMessage) : Prop :=
  ∃ seqs : List Int, messages.map LiveMessage.seq = seqs.map some ∧ (0 :: seqs).Pairwise (· < ·)

def endpointAt (nodeID : String) : PublicRouteEndpoint :=
  { nodeID, label := nodeID, lat := .fin 45, lng := .fin (-75), pathHash3 := "" }

def pulseEnvelope (id : String) (seq : Int) : LiveMessage :=
  { type := .event, seq := some seq, latestSeq := some seq, serverTime := some 1
    receivedAt := some 1
    data := some (.routePulse
      { seq, id, iata := "YOW", region := "YOW", payloadTypeName := "ADVERT", messageSender := ""
        messageText := "", messageAnchor := none, heardAt := 1
        segments := [{ routeID := "r", source := endpointAt "A", target := endpointAt "B"
                       distanceKM := .fin 1 }]
        receivedAt := none, displayAt := none }) }

/-- The same pulse under two seqs, cut in between. -/
def cutPulses : List (List LiveMessage) := [[pulseEnvelope "p" 1], [pulseEnvelope "p" 2]]

theorem routesSound_emptyState : RoutesSound emptyState.routePart :=
  ⟨Keyed.Indexes.nil, .nil 1, fun _ h => absurd h List.not_mem_nil⟩

/-- Without animation no pulse is stored, and the second batch counts it again. -/
theorem batches_count_twice :
    ¬ ∀ (state : AppState) (batches : List (List LiveMessage)) (animate : Bool),
      IncreasingSeqs batches.flatten → view (batched state batches animate) =
        view (applyPublicEnvelopes state batches.flatten animate) := by
  intro h
  have hview := h emptyState cutPulses false ⟨[1, 2], rfl, by decide⟩
  have hcounts := congrArg (fun v : View => v.routes.map PublicRoute.packetCount) hview
  revert hcounts
  decide +kernel

/-- With animation the pulse is stored. -/
theorem animated_batches_remember :
    view (batched emptyState cutPulses true) =
      view (applyPublicEnvelopes emptyState cutPulses.flatten true) ∧
    Remembers emptyState cutPulses true := by
  have hsegments : ∀ message ∈ cutPulses.flatten, ∀ data,
      message.data = some (.routePulse data) → data.segments ≠ [] := by
    intro message hmessage data hdata
    change message ∈ [pulseEnvelope "p" 1, pulseEnvelope "p" 2] at hmessage
    rcases List.mem_pair.mp hmessage with rfl | rfl
    · cases hdata
      exact List.cons_ne_nil _ _
    · cases hdata
      exact List.cons_ne_nil _ _
  have hview := (batching_keeps_view_iff routesSound_emptyState cutPulses true).1
    (by decide +kernel)
  exact ⟨hview, ((batching_keeps_view_iff routesSound_emptyState cutPulses true).2
    hsegments).mp hview⟩

end CartoLive.Theorems.Batching
