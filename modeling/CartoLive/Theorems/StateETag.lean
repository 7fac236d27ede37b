import Mathlib.Data.List.Induction
import CartoLive.Api.PublicState

/-!
# Entity tags of the public state

The tag of a serialization is the millisecond in which it was made. A live update
makes a new one only five seconds after the last, so its tag is new. A replacement
makes one at once: in the millisecond of the serialization that it replaces, it
gives the old tag to the new state (`tag_of_two_states`). Tags tell the states of
a run apart exactly if no replacement of the run does this with another JSON text.

## Main results

* `serialized_act`: what a call does to the serialization.
* `exists_since`: what is served after a text has a later tag, or the same text.
* `equal_tags_iff`: equal tags stand for equal states, and no answer 304 is wrong,
  exactly if no replacement reuses a tag for another text.
-/

namespace CartoLive.Theorems.StateETag

open CartoLive.Live CartoLive.Api

variable {e : Encoder} {filter : PublicIATAFilter} {c : PublicStateCache}

/-! ## Runs on a clock -/

/-- The time that a call reads. -/
def clockOf : CacheAct → Option Int
  | .live (.apply now _) => some now
  | .live (.setPacketCount _) => none
  | .recordExcludedIATA _ => none
  | .replace now _ _ _ => some now

/-- The clock never goes back. -/
def Clocked (acts : List CacheAct) : Prop := (acts.filterMap clockOf).Pairwise (· ≤ ·)

instance (acts : List CacheAct) : Decidable (Clocked acts) := by
  unfold Clocked
  infer_instance

/-- The cache after a call. -/
def act (c : PublicStateCache) : CacheAct → PublicStateCache
  | .live op => c.applyOp op
  | .recordExcludedIATA iata => c.recordExcludedIATA iata
  | .replace now state excluded expectedGeneration =>
    c.replace now state excluded expectedGeneration

theorem step_cacheSystem (c : PublicStateCache) (a : CacheAct) :
    (cacheSystem filter).step c a = some (act c a) := by
  cases a <;> rfl

def cacheAfter (filter : PublicIATAFilter) (acts : List CacheAct) : PublicStateCache :=
  acts.foldl act (newPublicStateCache filter)

theorem cacheAfter_concat (acts : List CacheAct) (a : CacheAct) :
    cacheAfter filter (acts ++ [a]) = act (cacheAfter filter acts) a := by
  simp [cacheAfter, List.foldl_append]

/-! ## The serialization and its time -/

/-- A ready cache has a serialization, made at its state's time. -/
structure Stamped (c : PublicStateCache) : Prop where
  ready : c.ready = c.serialized.isSome
  serializedAt : c.serializedAt = c.serialized.map PublicLiveState.updatedAt

/-- What a call that reads the time `now` does to the serialization. -/
inductive Serializes (c c' : PublicStateCache) : CacheAct → Prop
  | keeps {a : CacheAct} (h : c'.serialized = c.serialized) : Serializes c c' a
  | refreshes {now : Int} {data : PublicData} {state : PublicLiveState}
      (h : c'.serialized = some state) (hnow : state.updatedAt = now)
      (hlater : ∀ old ∈ c.serialized, old.updatedAt + publicSerializationMinInterval ≤ now) :
      Serializes c c' (.live (.apply now data))
  | replaces {now : Int} {fresh : PublicLiveState} {excluded : Counter}
      {expectedGeneration : Option Nat} (h : c'.serialized = some c'.state)
      (hnow : c'.state.updatedAt = now) :
      Serializes c c' (.replace now fresh excluded expectedGeneration)

theorem recordLiveUpdateLocked_cases (c : PublicStateCache) (now : Int) :
    ((c.recordLiveUpdateLocked now).serialized = c.serialized ∧
      (c.recordLiveUpdateLocked now).serializedAt = c.serializedAt) ∨
    ((∀ at_ ∈ c.serializedAt, publicSerializationMinInterval ≤ now - at_) ∧
      (c.recordLiveUpdateLocked now).serialized = some { c.state with updatedAt := now } ∧
      (c.recordLiveUpdateLocked now).serializedAt = some now) := by
  unfold PublicStateCache.recordLiveUpdateLocked
  dsimp only
  split
  · rename_i hdue
    refine .inr ⟨fun at_ hat => ?_, rfl, rfl⟩
    rw [Option.mem_def.mp hat] at hdue
    exact of_decide_eq_true hdue
  · exact .inl ⟨rfl, rfl⟩

/-- A live update of a ready cache changes the lists and then records itself. -/
theorem exists_apply (hready : c.ready = true) (now : Int) (data : PublicData) :
    ∃ changed : PublicStateCache, c.apply now data = changed.recordLiveUpdateLocked now ∧
      changed.ready = true ∧ changed.serialized = c.serialized ∧
      changed.serializedAt = c.serializedAt := by
  cases data <;>
    simp only [PublicStateCache.apply, PublicStateCache.applyNode,
      PublicStateCache.applyActivity, PublicStateCache.applyRoutePulse, hready, Bool.not_true,
      Bool.false_eq_true, if_false] <;>
    exact ⟨_, rfl, rfl, rfl, rfl⟩

/-- What a call does to the serialization. -/
theorem serialized_act (h : Stamped c) (a : CacheAct) :
    Stamped (act c a) ∧ Serializes c (act c a) a := by
  cases a with
  | recordExcludedIATA iata => exact ⟨⟨h.ready, h.serializedAt⟩, .keeps rfl⟩
  | replace now fresh excluded expectedGeneration => exact ⟨⟨rfl, rfl⟩, .replaces rfl rfl⟩
  | live op =>
    cases op with
    | setPacketCount count =>
      simp only [act, PublicStateCache.applyOp, PublicStateCache.setPacketCount]
      split
      · exact ⟨h, .keeps rfl⟩
      · exact ⟨⟨h.ready, h.serializedAt⟩, .keeps rfl⟩
    | apply now data =>
      cases hready : c.ready with
      | false =>
        have hsame : act c (.live (.apply now data)) = c :=
          PublicStateCache.apply_not_ready hready now data
        rw [hsame]
        exact ⟨h, .keeps rfl⟩
      | true =>
        obtain ⟨changed, happly, hchanged, hserialized, hat⟩ := exists_apply hready now data
        have hact : act c (.live (.apply now data)) = changed.recordLiveUpdateLocked now := happly
        have hstill : (changed.recordLiveUpdateLocked now).ready = true := by
          rw [PublicStateCache.recordLiveUpdateLocked_ready, hchanged]
        rw [hact]
        rcases recordLiveUpdateLocked_cases changed now with ⟨hsame, hsameAt⟩ | ⟨hdue, hnew, hnewAt⟩
        · rw [hserialized] at hsame
          refine ⟨⟨?_, ?_⟩, .keeps hsame⟩
          · rw [hstill, hsame, ← h.ready, hready]
          · rw [hsameAt, hsame, hat, h.serializedAt]
        · refine ⟨⟨?_, ?_⟩, .refreshes hnew rfl fun old hold => ?_⟩
          · rw [hstill, hnew]
            rfl
          · rw [hnewAt, hnew]
            rfl
          · have hlast : old.updatedAt ∈ changed.serializedAt := by
              rw [hat, h.serializedAt, Option.mem_def.mp hold]
              rfl
            have := hdue _ hlast
            omega

theorem stamped_cacheAfter (filter : PublicIATAFilter) (acts : List CacheAct) :
    Stamped (cacheAfter filter acts) := by
  induction acts using List.reverseRecOn with
  | nil => exact ⟨rfl, rfl⟩
  | append_singleton acts a ih =>
    rw [cacheAfter_concat]
    exact (serialized_act ih a).1

/-! ## The tags of a run -/

/-- The time of a serialization is a time that a call of the run has read. -/
theorem mem_clockOf_of_serialized {acts : List CacheAct} {state : PublicLiveState}
    (h : (cacheAfter filter acts).serialized = some state) :
    state.updatedAt ∈ acts.filterMap clockOf := by
  induction acts using List.reverseRecOn with
  | nil => cases h
  | append_singleton acts a ih =>
    rw [List.filterMap_append, List.mem_append]
    rw [cacheAfter_concat] at h
    have hstamped := stamped_cacheAfter filter acts
    cases (serialized_act hstamped a).2 with
    | keeps hkept => exact .inl (ih (hkept ▸ h))
    | refreshes hnew hnow _ =>
      rw [hnew, Option.some.injEq] at h
      subst h
      exact .inr (by simp [clockOf, hnow])
    | replaces hnew hnow =>
      rw [hnew, Option.some.injEq] at h
      subst h
      exact .inr (by simp [clockOf, hnow])

/-- A call comes at or after the time of the serialization that it finds. -/
theorem le_clockOf {acts : List CacheAct} {a : CacheAct} {state : PublicLiveState} {now : Int}
    (hclock : Clocked (acts ++ [a])) (h : (cacheAfter filter acts).serialized = some state)
    (hnow : clockOf a = some now) : state.updatedAt ≤ now := by
  unfold Clocked at hclock
  rw [List.filterMap_append, List.pairwise_append] at hclock
  exact hclock.2.2 _ (mem_clockOf_of_serialized h) _ (by simp [hnow])

/-- A call does not put the tag back. -/
theorem updatedAt_le_act {acts : List CacheAct} {a : CacheAct} {old state : PublicLiveState}
    (hclock : Clocked (acts ++ [a])) (hold : (cacheAfter filter acts).serialized = some old)
    (h : (cacheAfter filter (acts ++ [a])).serialized = some state) :
    old.updatedAt ≤ state.updatedAt := by
  rw [cacheAfter_concat] at h
  cases (serialized_act (stamped_cacheAfter filter acts) a).2 with
  | keeps hkept =>
    rw [hkept, hold, Option.some.injEq] at h
    rw [h]
  | refreshes hnew hnow _ =>
    rw [hnew, Option.some.injEq] at h
    rw [← h, hnow]
    exact le_clockOf hclock hold rfl
  | replaces hnew hnow =>
    rw [hnew, Option.some.injEq] at h
    rw [← h, hnow]
    exact le_clockOf hclock hold rfl

/-- A serialization that is there stays or is replaced. -/
theorem exists_serialized_act (hstamped : Stamped c) {old : PublicLiveState}
    (hold : c.serialized = some old) (a : CacheAct) :
    ∃ state, (act c a).serialized = some state := by
  cases (serialized_act hstamped a).2 with
  | keeps hkept => exact ⟨old, hkept.trans hold⟩
  | refreshes hnew _ _ => exact ⟨_, hnew⟩
  | replaces hnew _ => exact ⟨_, hnew⟩

/-! ## What was served last -/

/-- The state behind what `Serialized` returns. -/
def servedState (e : Encoder) (c : PublicStateCache) : Option PublicLiveState :=
  if c.ready then c.serialized.filter fun state => e.json state ≠ [] else none

/-- The cache and the state that was served last, after a call. -/
def watch (e : Encoder) (w : PublicStateCache × Option PublicLiveState) (a : CacheAct) :
    PublicStateCache × Option PublicLiveState :=
  (act w.1 a, (servedState e (act w.1 a)).or w.2)

/-- The last state of a run that had a JSON text. -/
def lastServed (e : Encoder) (filter : PublicIATAFilter) (acts : List CacheAct) :
    Option PublicLiveState :=
  (acts.foldl (watch e) (newPublicStateCache filter, none)).2

theorem fst_watch (acts : List CacheAct) (w : PublicStateCache × Option PublicLiveState) :
    (acts.foldl (watch e) w).1 = acts.foldl act w.1 := by
  induction acts generalizing w with
  | nil => rfl
  | cons a acts ih => exact ih _

theorem lastServed_concat (acts : List CacheAct) (a : CacheAct) :
    lastServed e filter (acts ++ [a]) =
      (servedState e (cacheAfter filter (acts ++ [a]))).or (lastServed e filter acts) := by
  unfold lastServed
  rw [List.foldl_append, cacheAfter_concat]
  show (servedState e (act (acts.foldl (watch e) _).1 a)).or _ = _
  rw [fst_watch]
  rfl

theorem mem_servedState_iff (hstamped : Stamped c) {state : PublicLiveState} :
    servedState e c = some state ↔ c.serialized = some state ∧ e.json state ≠ [] := by
  unfold servedState
  rw [hstamped.ready]
  cases c.serialized <;> simp [Option.filter_eq_some_iff]

theorem serialized_eq_some_iff (hstamped : Stamped c) {s : PublicStateSerialization} :
    e.serialized c = some s ↔
      ∃ state, servedState e c = some state ∧ e.serializePublicState state = s := by
  unfold Encoder.serialized
  cases hserialized : c.serialized with
  | none => simp [servedState, hserialized]
  | some state =>
    have hready : c.ready = true := by rw [hstamped.ready, hserialized]; rfl
    by_cases htext : e.json state = []
    · simp [servedState, hserialized, hready, Encoder.serializePublicState, htext]
    · simp [servedState, hserialized, hready, Encoder.serializePublicState, htext]

/-! ## The property and its condition -/

/-- A replacement that falls into the millisecond of the state that was served last
installs a state with the same JSON text, or with none. -/
def KeepsText (e : Encoder) (served : Option PublicLiveState) (c : PublicStateCache) :
    CacheAct → Prop
  | .replace now fresh excluded expectedGeneration => ∀ old ∈ served, old.updatedAt = now →
      e.json (c.replace now fresh excluded expectedGeneration).state = [] ∨
        e.json (c.replace now fresh excluded expectedGeneration).state = e.json old
  | _ => True

/-- Equal tags stand for equal texts, and a request that names the tag of a text and
is answered 304 would have been sent what came with the tag. -/
structure TagsTell (e : Encoder) (filter : PublicIATAFilter) (acts : List CacheAct) : Prop where
  equal : ∀ p q, p <+: acts → q <+: acts →
    ∀ s ∈ e.serialized (cacheAfter filter p), ∀ s' ∈ e.serialized (cacheAfter filter q),
      s.etag = s'.etag → s.json = s'.json
  notModified : ∀ p q, p <+: q → q <+: acts →
    ∀ s ∈ e.serialized (cacheAfter filter p), ∀ n n' (r : StateRequest),
      (publicState e n' (cacheAfter filter q) { r with ifNoneMatch := s.etag }).status = 304 →
      (publicState e n' (cacheAfter filter q) { r with ifNoneMatch := "" }).body =
        (publicState e n (cacheAfter filter p) { r with ifNoneMatch := "" }).body

/-- The state that was served last was served by one of the calls. -/
theorem exists_lastServed {acts : List CacheAct} {old : PublicLiveState}
    (h : lastServed e filter acts = some old) :
    ∃ p, p <+: acts ∧ servedState e (cacheAfter filter p) = some old := by
  induction acts using List.reverseRecOn with
  | nil => cases h
  | append_singleton acts a ih =>
    rw [lastServed_concat, Option.or_eq_some_iff] at h
    rcases h with hnow | ⟨-, hbefore⟩
    · exact ⟨_, List.prefix_refl _, hnow⟩
    · obtain ⟨p, hp, hserved⟩ := ih hbefore
      exact ⟨p, hp.trans (List.prefix_append _ _), hserved⟩

/-- What a run holds of a text that it has served: the last one served has a later
tag or the same text, and the tag of the serialization is not before it. -/
structure Since (e : Encoder) (filter : PublicIATAFilter) (old : PublicLiveState)
    (acts : List CacheAct) (last state : PublicLiveState) : Prop where
  served : lastServed e filter acts = some last
  serialized : (cacheAfter filter acts).serialized = some state
  last_eq : e.json state ≠ [] → last = state
  old_le : old.updatedAt ≤ last.updatedAt
  le_state : last.updatedAt ≤ state.updatedAt
  text : last.updatedAt = old.updatedAt → e.json last = e.json old

/-- A new serialization with a text is the last one served. -/
theorem Since.next {acts : List CacheAct} {a : CacheAct} {old last mid state : PublicLiveState}
    (h : Since e filter old acts last mid)
    (hstate : (cacheAfter filter (acts ++ [a])).serialized = some state)
    (hle : mid.updatedAt ≤ state.updatedAt)
    (htext : e.json state ≠ [] → state.updatedAt = old.updatedAt → e.json state = e.json old) :
    ∃ last' state', Since e filter old (acts ++ [a]) last' state' := by
  have hstamped := stamped_cacheAfter filter (acts ++ [a])
  have := h.old_le
  have := h.le_state
  by_cases hnone : e.json state = []
  · refine ⟨last, state,
      { served := ?_, serialized := hstate, last_eq := fun hsome => absurd hnone hsome
        old_le := h.old_le, le_state := by omega, text := h.text }⟩
    have hserved : servedState e (cacheAfter filter (acts ++ [a])) = none := by
      refine Option.eq_none_iff_forall_ne_some.mpr fun other hother => ?_
      obtain ⟨hsame, hsome⟩ := (mem_servedState_iff hstamped).mp hother
      rw [hstate, Option.some.injEq] at hsame
      exact hsome (hsame ▸ hnone)
    rw [lastServed_concat, hserved]
    exact h.served
  · refine ⟨state, state,
      { served := ?_, serialized := hstate, last_eq := fun _ => rfl
        old_le := by omega, le_state := le_refl _, text := htext hnone }⟩
    rw [lastServed_concat, (mem_servedState_iff hstamped).mpr ⟨hstate, hnone⟩]
    rfl

/-- Every later moment of the run: by induction on the calls since. -/
theorem exists_since {acts more : List CacheAct} {old : PublicLiveState}
    (hclock : Clocked (acts ++ more))
    (hkeeps : ∀ p a, p ++ [a] <+: acts ++ more →
      KeepsText e (lastServed e filter p) (cacheAfter filter p) a)
    (hold : servedState e (cacheAfter filter acts) = some old)
    (hlast : lastServed e filter acts = some old) :
    ∃ last state, Since e filter old (acts ++ more) last state := by
  induction more using List.reverseRecOn with
  | nil =>
    rw [List.append_nil]
    exact ⟨old, old,
      { served := hlast
        serialized := ((mem_servedState_iff (stamped_cacheAfter filter acts)).mp hold).1
        last_eq := fun _ => rfl, old_le := le_refl _, le_state := le_refl _, text := fun _ => rfl }⟩
  | append_singleton more a ih =>
    rw [← List.append_assoc] at hclock hkeeps ⊢
    have hbefore : Clocked (acts ++ more) :=
      hclock.sublist ((List.sublist_append_left _ [a]).filterMap clockOf)
    obtain ⟨last, mid, hsince⟩ := ih hbefore fun p b hp => hkeeps p b (hp.trans ⟨[a], rfl⟩)
    have hstamped := stamped_cacheAfter filter (acts ++ more)
    obtain ⟨state, hstate⟩ := exists_serialized_act hstamped hsince.serialized a
    rw [← cacheAfter_concat] at hstate
    have hle := updatedAt_le_act hclock hsince.serialized hstate
    refine hsince.next hstate hle fun htext htag => ?_
    have hkept := hkeeps (acts ++ more) a (List.prefix_refl _)
    have := hsince.old_le
    have := hsince.le_state
    rw [cacheAfter_concat] at hstate
    generalize hc' : act (cacheAfter filter (acts ++ more)) a = c' at hstate
    have hserializes := (serialized_act hstamped a).2
    rw [hc'] at hserializes
    cases hserializes with
    | keeps hsame =>
      rw [hsame, hsince.serialized, Option.some.injEq] at hstate
      subst hstate
      rw [← hsince.last_eq htext]
      exact hsince.text (by rw [hsince.last_eq htext]; exact htag)
    | refreshes hnew hnow hlater =>
      -- five seconds lie between the two
      rw [hnew, Option.some.injEq] at hstate
      subst hstate
      have := hlater mid hsince.serialized
      unfold publicSerializationMinInterval at this
      omega
    | replaces hnew hnow =>
      rw [hnew, Option.some.injEq] at hstate
      subst hstate
      have hinstalled := hkept last hsince.served (by omega)
      have hsame : (PublicStateCache.replace _ _ _ _ _).state = c'.state := congrArg _ hc'
      rw [hsame] at hinstalled
      rw [hinstalled.resolve_left htext]
      exact hsince.text (by omega)

/-- Two moments of a run, the earlier one first. -/
theorem json_eq_of_earlier {acts p q : List CacheAct} (hclock : Clocked acts)
    (hkeeps : ∀ p a, p ++ [a] <+: acts →
      KeepsText e (lastServed e filter p) (cacheAfter filter p) a) (hpq : p <+: q)
    (hq : q <+: acts) {old state : PublicLiveState}
    (hold : servedState e (cacheAfter filter p) = some old)
    (h : servedState e (cacheAfter filter q) = some state)
    (htag : state.updatedAt = old.updatedAt) : e.json state = e.json old := by
  obtain ⟨more, rfl⟩ := hpq
  have hclock' : Clocked (p ++ more) := hclock.sublist (hq.sublist.filterMap clockOf)
  have hlast : lastServed e filter p = some old := by
    rcases List.eq_nil_or_concat p with rfl | ⟨before, a, rfl⟩
    · cases hold
    · rw [List.concat_eq_append] at hold ⊢
      rw [lastServed_concat, hold]
      rfl
  obtain ⟨last, later, hsince⟩ :=
    exists_since hclock' (fun b a hb => hkeeps b a (hb.trans hq)) hold hlast
  obtain ⟨hstate, htext⟩ := (mem_servedState_iff (stamped_cacheAfter filter _)).mp h
  rw [hsince.serialized, Option.some.injEq] at hstate
  subst hstate
  rw [← hsince.last_eq htext] at htag ⊢
  exact hsince.text htag

/-! ## Answers -/

theorem serializePublicState_of_text {state : PublicLiveState} (h : e.json state ≠ []) :
    e.serializePublicState state =
      { json := e.json state, gzip := e.gzip (e.json state)
        etag := stateETag state.updatedAt } := by
  unfold Encoder.serializePublicState
  rw [if_neg h]

/-- What `Serialized` returns, with the state behind it. -/
theorem exists_servedState (hstamped : Stamped c) {s : PublicStateSerialization}
    (h : e.serialized c = some s) : ∃ state, servedState e c = some state ∧
      s = { json := e.json state, gzip := e.gzip (e.json state)
            etag := stateETag state.updatedAt } := by
  obtain ⟨state, hstate, rfl⟩ := (serialized_eq_some_iff hstamped).mp h
  exact ⟨state, hstate, serializePublicState_of_text ((mem_servedState_iff hstamped).mp hstate).2⟩

/-- The tag of a serialization is a weak one. -/
theorem toList_stateETag (updatedAt : Int) :
    (stateETag updatedAt).toList = 'W' :: '/' :: '"' :: ((toString updatedAt).toList ++ ['"']) := by
  unfold stateETag
  rw [String.toList_append, String.toList_append]
  rfl

/-- A request without a tag is answered with the state. -/
theorem body_of_no_tag {s : PublicStateSerialization} (hs : e.serialized c = some s)
    (hstamped : Stamped c) (n : ServerNumbers) (r : StateRequest) :
    (publicState e n c { r with ifNoneMatch := "" }).body =
      if (Go.toLower r.acceptEncoding).contains "gzip" ∧ 0 < s.gzip.length then s.gzip
      else s.json := by
  obtain ⟨state, -, rfl⟩ := exists_servedState hstamped hs
  have hother : "" ≠ stateETag state.updatedAt := fun hempty => by
    have htext := congrArg String.toList hempty
    rw [toList_stateETag] at htext
    cases htext
  unfold publicState
  simp only [hs, if_neg hother]
  split <;> rfl

/-- A request that names the tag of a serialization is answered 304 from a
serialization with that tag. -/
theorem exists_of_not_modified {n : ServerNumbers} {r : StateRequest} {updatedAt : Int}
    (hmatch : r.ifNoneMatch = stateETag updatedAt) (h : (publicState e n c r).status = 304) :
    ∃ s, e.serialized c = some s ∧ stateETag updatedAt = s.etag := by
  unfold publicState at h
  rw [hmatch] at h
  cases hs : e.serialized c with
  | some s =>
    refine ⟨s, rfl, ?_⟩
    simp only [hs] at h
    split at h
    · assumption
    · split at h <;> cases h
  | none =>
    -- the tag of a state without serialization is a strong one
    simp only [hs] at h
    cases hsnapshot : c.snapshot with
    | none =>
      rw [hsnapshot] at h
      cases h
    | some state =>
      simp only [hsnapshot] at h
      split at h
      · rename_i hstrong
        have htext := congrArg String.toList hstrong
        rw [toList_stateETag, String.toList_append, String.toList_append] at htext
        cases htext
      · cases h

/-! ## The main result -/

/-- **Entity tags of the state.** Equal tags stand for equal texts, and a browser that
is answered 304 has what it would have been sent, exactly if no replacement of the
run falls into the millisecond of the state served last and has another text. -/
theorem equal_tags_iff (e : Encoder) (filter : PublicIATAFilter) (acts : List CacheAct)
    (hclock : Clocked acts) : TagsTell e filter acts ↔
      ∀ p a, p ++ [a] <+: acts → KeepsText e (lastServed e filter p) (cacheAfter filter p) a := by
  constructor
  · intro htell p a hp
    cases a with
    | live op => trivial
    | recordExcludedIATA iata => trivial
    | replace now fresh excluded expectedGeneration =>
      intro old hold htag
      generalize ha : CacheAct.replace now fresh excluded expectedGeneration = a at hp
      have hnew : (cacheAfter filter (p ++ [a])).serialized =
          some ((cacheAfter filter p).replace now fresh excluded expectedGeneration).state := by
        rw [cacheAfter_concat, ← ha]
        rfl
      rw [or_iff_not_imp_left]
      intro htext
      obtain ⟨before, hbefore, hserved⟩ := exists_lastServed hold
      have hnext := stamped_cacheAfter filter (p ++ [a])
      have holdText := ((mem_servedState_iff (stamped_cacheAfter filter before)).mp hserved).2
      have hequal := htell.equal (p ++ [a]) before hp
        (hbefore.trans ((List.prefix_append p _).trans hp))
        _ ((serialized_eq_some_iff hnext).mpr
          ⟨_, (mem_servedState_iff hnext).mpr ⟨hnew, htext⟩, rfl⟩)
        _ ((serialized_eq_some_iff (stamped_cacheAfter filter before)).mpr ⟨_, hserved, rfl⟩)
      rw [serializePublicState_of_text htext, serializePublicState_of_text holdText] at hequal
      exact hequal (congrArg stateETag htag.symm)
  · intro hkeeps
    have hequal : ∀ p q, p <+: acts → q <+: acts →
        ∀ s ∈ e.serialized (cacheAfter filter p), ∀ s' ∈ e.serialized (cacheAfter filter q),
          s.etag = s'.etag → s.json = s'.json := by
      intro p q hp hq s hs s' hs' htag
      obtain ⟨old, hold, rfl⟩ := exists_servedState (stamped_cacheAfter filter p) hs
      obtain ⟨state, hstate, rfl⟩ := exists_servedState (stamped_cacheAfter filter q) hs'
      have htime := stateETag_inj htag
      rcases List.prefix_or_prefix_of_prefix hp hq with hpq | hqp
      · exact (json_eq_of_earlier hclock hkeeps hpq hq hold hstate htime.symm).symm
      · exact json_eq_of_earlier hclock hkeeps hqp hp hstate hold htime
    refine ⟨hequal, fun p q hpq hq s hs n n' r hnot => ?_⟩
    have hp := stamped_cacheAfter filter p
    have hq' := stamped_cacheAfter filter q
    obtain ⟨old, hold, rfl⟩ := exists_servedState hp hs
    obtain ⟨s', hs', htag⟩ := exists_of_not_modified rfl hnot
    have hjson := hequal p q (hpq.trans hq) hq _ hs s' hs' htag
    rw [body_of_no_tag hs hp, body_of_no_tag hs' hq']
    obtain ⟨state, hstate, rfl⟩ := exists_servedState hq' hs'
    dsimp only at hjson ⊢
    rw [hjson]

/-! ## Two states in one millisecond -/

/-- The JSON text of a state without items, counters and sequence number. -/
def bareText (state : PublicLiveState) : String :=
  "\x7b\"serverTime\":" ++ toString state.serverTime ++ ",\"map\":\x7b\x7d," ++
    "\"stats\":\x7b\"packets\":" ++ toString state.stats.packets ++
    ",\"activeNodes\":0,\"activeRoutes\":0,\"mqttConnected\":false,\"mqttMessages\":0," ++
    "\"wsClients\":0,\"serverTime\":" ++ toString state.stats.serverTime ++
    "\x7d,\"nodes\":[],\"routes\":[],\"recentActivity\":[],\"updatedAt\":" ++
    toString state.updatedAt ++ "\x7d"

/-- The bare text; there is no compressed form. -/
def bareEncoder : Encoder where
  json state := (bareText state).toUTF8.data.toList
  gzip _ := []

/-- A state that tells a number of packets only. -/
def counted (packets : Int) : PublicLiveState :=
  { emptyPublicLiveState with stats := { emptyPublicLiveState.stats with packets } }

/-- Two replacements at the given times. -/
def twoReplacements (first second : Int) : List CacheAct :=
  [.replace first (counted 1) [] none, .replace second (counted 2) [] none]

theorem json_bareEncoder_inj {s t : PublicLiveState}
    (h : bareEncoder.json s = bareEncoder.json t) : bareText s = bareText t :=
  String.toByteArray_inj.mp (ByteArray.ext (Array.toList_inj.mp h))

theorem json_bareEncoder_ne_nil (state : PublicLiveState) : bareEncoder.json state ≠ [] := by
  intro hnil
  have hempty : bareText state = "" :=
    String.toByteArray_inj.mp (ByteArray.ext (Array.toList_inj.mp hnil))
  exact absurd (String.append_eq_empty_iff.mp hempty).2 (by decide)

/-- The bare text tells the number of packets. -/
theorem packets_of_bareText {s t : PublicLiveState} (h : bareText s = bareText t)
    (hserverTime : s.serverTime = t.serverTime)
    (hstatsTime : s.stats.serverTime = t.stats.serverTime)
    (hupdatedAt : s.updatedAt = t.updatedAt) : s.stats.packets = t.stats.packets := by
  unfold bareText at h
  rw [hserverTime, hstatsTime, hupdatedAt] at h
  simp only [String.append_left_inj, String.append_right_inj] at h
  exact Go.toString_inj h

theorem equal_tags_of_two_milliseconds :
    TagsTell bareEncoder (newPublicIATAFilter []) (twoReplacements 7 8) := by
  refine (equal_tags_iff bareEncoder (newPublicIATAFilter []) (twoReplacements 7 8)
    (by decide)).mpr ?_
  intro p a hp
  have hlength := hp.length_le
  match p, hp with
  | [], hp =>
    obtain ⟨rest, hrest⟩ := hp
    cases hrest
    intro old hold
    cases hold
  | [b], hp =>
    obtain ⟨rest, hrest⟩ := hp
    cases hrest
    intro old hold htag
    -- the state served last is the first one, of the millisecond before
    have hlast : (servedState bareEncoder (cacheAfter (newPublicIATAFilter [])
        [.replace 7 (counted 1) [] none])).or (lastServed bareEncoder _ []) = some old :=
      (lastServed_concat [] _).symm.trans hold
    rcases Option.or_eq_some_iff.mp hlast with hserved | ⟨-, hnone⟩
    · obtain ⟨hfirst, -⟩ := (mem_servedState_iff (stamped_cacheAfter _ _)).mp hserved
      cases hfirst
      exact absurd htag (by decide)
    · cases hnone
  | b :: b' :: more, hp =>
    simp [twoReplacements] at hlength

/-- The second of two replacements in one millisecond gets the tag of the first. -/
theorem tag_of_two_states :
    ¬ ∀ (e : Encoder) (filter : PublicIATAFilter) (acts : List CacheAct), Clocked acts →
      TagsTell e filter acts := by
  intro hall
  have htell := hall bareEncoder (newPublicIATAFilter []) (twoReplacements 7 7) (by decide)
  have hjson := htell.equal [.replace 7 (counted 1) [] none] (twoReplacements 7 7)
    ⟨_, rfl⟩ (List.prefix_refl _)
    _ ((serialized_eq_some_iff (stamped_cacheAfter _ _)).mpr
      ⟨_, (mem_servedState_iff (stamped_cacheAfter _ _)).mpr
        ⟨rfl, json_bareEncoder_ne_nil _⟩, rfl⟩)
    _ ((serialized_eq_some_iff (stamped_cacheAfter _ _)).mpr
      ⟨_, (mem_servedState_iff (stamped_cacheAfter _ _)).mpr
        ⟨rfl, json_bareEncoder_ne_nil _⟩, rfl⟩)
  rw [serializePublicState_of_text (json_bareEncoder_ne_nil _),
    serializePublicState_of_text (json_bareEncoder_ne_nil _)] at hjson
  have htexts := json_bareEncoder_inj (hjson rfl)
  exact absurd (packets_of_bareText htexts rfl rfl rfl) (by decide)

end CartoLive.Theorems.StateETag
