import CartoLive.Api.Admission
import Mathlib.Data.List.Induction
import Mathlib.Tactic.Linarith
import Mathlib.Tactic.Ring
import Mathlib.Tactic.FieldSimp
import Mathlib.Algebra.Order.Field.Rat

/-!
# The budget of a client

What a client has been granted and what is in its bucket never exceed the burst
and what the time since its first call has earned, as long as no call and no tick
reads the clock earlier than one before it: a call that goes back in time takes
the bucket back with it, and the same time is earned again.
-/

namespace CartoLive.Theorems.RateLimit

open CartoLive.Api

/-! ## Budgets -/

/-- The tokens that a time earns. -/
def earned (rate : Nat) (duration : Int) : ℚ := seconds duration * rate / 60

/-- The calls of a client that were allowed. -/
def grants (ip : String) (answers : List RateAnswer) : Nat :=
  answers.countP fun answer => answer.ip = ip ∧ answer.allowed = true

/-- A client was allowed as many calls as the burst and the time between its calls permit. -/
def WithinBudget (rate burst : Nat) (ip : String) (events : List RateEvent) : Prop :=
  ∀ first last : Int, first ≤ last →
    (∀ answer ∈ (rateRun rate burst events).answers, answer.ip = ip →
      first ≤ answer.now ∧ answer.now ≤ last) →
    (grants ip (rateRun rate burst events).answers : ℚ) ≤ burst + earned rate (last - first)

/-- The times of the calls of a client and of the ticks. -/
def clientTimes (ip : String) (events : List RateEvent) : List Int :=
  events.filterMap fun event =>
    match event with
    | .allow other now => if other = ip then some now else none
    | .tick now => some now

/-- The calls of a client and the ticks do not go back in time, and where a tick deletes the bucket
of the client, the bucket would be full at the tick. -/
structure Forward (rate burst : Nat) (ip : String) (events : List RateEvent) : Prop where
  times : (clientTimes ip events).Pairwise (· ≤ ·)
  deleted : ∀ before now after bucket, events = before ++ .tick now :: after →
    (rateRun rate burst before).limiter.clients ip = some bucket →
      bucket.lastSeen < now - rateCleanup →
        (burst : ℚ) ≤ bucket.tokens + earned rate (now - bucket.lastSeen)

theorem earned_add (rate : Nat) (a b : Int) : earned rate a + earned rate b = earned rate (a + b) := by
  unfold earned seconds
  push_cast
  ring

theorem earned_nonneg (rate : Nat) {a : Int} (h : 0 ≤ a) : 0 ≤ earned rate a := by
  have ha : (0 : ℚ) ≤ a := by exact_mod_cast h
  have hrate : (0 : ℚ) ≤ rate := Nat.cast_nonneg rate
  exact div_nonneg (mul_nonneg (div_nonneg ha (by norm_num)) hrate) (by norm_num)

theorem earned_mono (rate : Nat) {a b : Int} (h : a ≤ b) : earned rate a ≤ earned rate b := by
  have hadd := earned_add rate a (b - a)
  rw [show a + (b - a) = b by omega] at hadd
  have := earned_nonneg rate (show 0 ≤ b - a by omega)
  linarith

/-! ## Steps -/

section Steps

variable {rate burst : Nat} {ip : String} {events : List RateEvent} {run : RateRun}

theorem rateRun_append (rate burst : Nat) (events : List RateEvent) (event : RateEvent) :
    rateRun rate burst (events ++ [event]) = (rateRun rate burst events).step event := by
  rw [rateRun, List.foldl_append]
  rfl

/-- The settings of a limiter stay as they are. -/
theorem settings_rateRun (rate burst : Nat) (events : List RateEvent) :
    (rateRun rate burst events).limiter.rate = rate ∧
      (rateRun rate burst events).limiter.burst = burst := by
  induction events using List.reverseRecOn with
  | nil => exact ⟨rfl, rfl⟩
  | append_singleton events event ih =>
    rw [rateRun_append]
    cases event with
    | allow other now =>
      unfold RateRun.step RateLimiter.allowAt
      dsimp only
      split <;> exact ih
    | tick now => exact ih

/-- The bucket of a call, and its answer. -/
theorem allowAt_spec (rl : RateLimiter) (ip : String) (now : Int) :
    ∃ tokens, tokens = rl.refilled (rl.bucketAt ip now) now ∧
      (rl.allowAt ip now).2.clients ip =
        some { tokens := if (rl.allowAt ip now).1 then tokens - 1 else tokens, lastSeen := now } ∧
      ((rl.allowAt ip now).1 = true ↔ 1 ≤ tokens) ∧
      ∀ other, other ≠ ip → (rl.allowAt ip now).2.clients other = rl.clients other := by
  refine ⟨_, rfl, ?_⟩
  unfold RateLimiter.allowAt
  dsimp only
  split
  · rename_i hless
    exact ⟨if_pos rfl, iff_of_false (by nofun) (not_le.mpr hless), fun other hother => if_neg hother⟩
  · rename_i henough
    exact ⟨if_pos rfl, iff_of_true rfl (not_lt.mp henough), fun other hother => if_neg hother⟩

/-- What a client has been granted since its first call, against what it has earned. -/
structure Spent (rate burst : Nat) (ip : String) (run : RateRun) (first last latest : Int) : Prop where
  ordered : first ≤ last ∧ last ≤ latest
  first_call : ∃ answer ∈ run.answers, answer.ip = ip ∧ answer.now = first
  last_call : ∃ answer ∈ run.answers, answer.ip = ip ∧ answer.now = last
  granted : (grants ip run.answers : ℚ) ≤ burst + earned rate (last - first)
  bucket : ∀ bucket, run.limiter.clients ip = some bucket → bucket.lastSeen = last ∧
    (grants ip run.answers : ℚ) + bucket.tokens ≤ burst + earned rate (last - first)
  gone : run.limiter.clients ip = none →
    (grants ip run.answers : ℚ) ≤ earned rate (latest - first)

/-- Before its first call, a client has no bucket. -/
structure Unseen (ip : String) (run : RateRun) : Prop where
  answers : ∀ answer ∈ run.answers, answer.ip ≠ ip
  bucket : run.limiter.clients ip = none

theorem grants_append (ip : String) (answers : List RateAnswer) (answer : RateAnswer) :
    grants ip (answers ++ [answer]) =
      grants ip answers + if answer.ip = ip ∧ answer.allowed = true then 1 else 0 := by
  rw [grants, List.countP_append, List.countP_singleton]
  simp only [decide_eq_true_eq]
  rfl

theorem refilled_le_burst (rl : RateLimiter) (bucket : RateBucket) (now : Int) :
    rl.refilled bucket now ≤ rl.burst := by
  unfold RateLimiter.refilled
  dsimp only
  generalize (if 0 < now - bucket.lastSeen then
    bucket.tokens + seconds (now - bucket.lastSeen) * rl.rate / 60 else bucket.tokens) = tokens
  split
  · exact le_refl _
  · rename_i hfits
    exact not_lt.mp hfits

/-- A bucket gains at most what the time since its last call earns. -/
theorem refilled_le (rl : RateLimiter) {bucket : RateBucket} {now : Int}
    (h : bucket.lastSeen ≤ now) :
    rl.refilled bucket now ≤ bucket.tokens + earned rl.rate (now - bucket.lastSeen) := by
  have hgain : (if 0 < now - bucket.lastSeen then
      bucket.tokens + seconds (now - bucket.lastSeen) * rl.rate / 60 else bucket.tokens) ≤
        bucket.tokens + earned rl.rate (now - bucket.lastSeen) := by
    split
    · exact le_rfl
    · have := earned_nonneg rl.rate (show 0 ≤ now - bucket.lastSeen by omega)
      linarith
  unfold RateLimiter.refilled
  dsimp only
  generalize (if 0 < now - bucket.lastSeen then
    bucket.tokens + seconds (now - bucket.lastSeen) * rl.rate / 60 else bucket.tokens) = tokens
    at hgain ⊢
  split
  · rename_i hfull
    exact (le_of_lt hfull).trans hgain
  · exact hgain

/-- A call of the client, where its grants and the tokens before the call are covered. -/
theorem spent_call {first now : Int} (hle : first ≤ now)
    (hfirst : first = now ∨ ∃ answer ∈ run.answers, answer.ip = ip ∧ answer.now = first)
    (hgrants : (grants ip run.answers : ℚ) ≤ burst + earned rate (now - first))
    (hsum : (grants ip run.answers : ℚ) + run.limiter.refilled (run.limiter.bucketAt ip now) now ≤
      burst + earned rate (now - first)) :
    Spent rate burst ip (run.step (.allow ip now)) first now now := by
  obtain ⟨tokens, htokens, hbucket, hallowed, -⟩ := allowAt_spec run.limiter ip now
  rw [← htokens] at hsum
  have hanswers : (run.step (.allow ip now)).answers =
      run.answers ++ [{ ip, now, allowed := (run.limiter.allowAt ip now).1 }] := rfl
  have hnew : ∃ answer ∈ (run.step (.allow ip now)).answers, answer.ip = ip ∧ answer.now = now :=
    ⟨_, by rw [hanswers]; exact List.mem_append_right _ (List.mem_singleton_self _), rfl, rfl⟩
  have hclients : (run.step (.allow ip now)).limiter.clients ip =
      some { tokens := if (run.limiter.allowAt ip now).1 then tokens - 1 else tokens
             lastSeen := now } := hbucket
  have hcount := grants_append ip run.answers
    { ip, now, allowed := (run.limiter.allowAt ip now).1 }
  rw [← hanswers] at hcount
  generalize (run.limiter.allowAt ip now).1 = allowed at hcount hclients hallowed
  constructor
  · exact ⟨hle, le_rfl⟩
  · rcases hfirst with rfl | ⟨answer, hanswer, hcall⟩
    · exact hnew
    · exact ⟨answer, by rw [hanswers]; exact List.mem_append_left _ hanswer, hcall⟩
  · exact hnew
  · rw [hcount]
    cases allowed with
    | true =>
      have := hallowed.mp rfl
      simp only [and_self, if_true]
      push_cast
      linarith
    | false => simpa using hgrants
  · intro bucket hsome
    rw [hclients] at hsome
    obtain rfl := Option.some.inj hsome
    refine ⟨rfl, ?_⟩
    rw [hcount]
    cases allowed with
    | true =>
      simp only [and_self, if_true]
      push_cast
      linarith
    | false => simpa using hsum
  · intro hnone
    rw [hclients] at hnone
    cases hnone

/-- A call of another client. -/
theorem spent_other {first last latest now : Int} {other : String} (hother : other ≠ ip)
    (h : Spent rate burst ip run first last latest) :
    Spent rate burst ip (run.step (.allow other now)) first last latest := by
  obtain ⟨-, -, -, -, hsame⟩ := allowAt_spec run.limiter other now
  have hclients : (run.step (.allow other now)).limiter.clients ip = run.limiter.clients ip :=
    hsame ip (Ne.symm hother)
  have hanswers : (run.step (.allow other now)).answers =
      run.answers ++ [{ ip := other, now, allowed := (run.limiter.allowAt other now).1 }] := rfl
  have hcount : grants ip (run.step (.allow other now)).answers = grants ip run.answers := by
    rw [hanswers, grants_append, if_neg fun hthis => hother hthis.1, Nat.add_zero]
  obtain ⟨first_answer, hfirst, hfirst_call⟩ := h.first_call
  obtain ⟨last_answer, hlast, hlast_call⟩ := h.last_call
  exact
    { ordered := h.ordered
      first_call := ⟨first_answer, by rw [hanswers]; exact List.mem_append_left _ hfirst, hfirst_call⟩
      last_call := ⟨last_answer, by rw [hanswers]; exact List.mem_append_left _ hlast, hlast_call⟩
      granted := by rw [hcount]; exact h.granted
      bucket := fun bucket hsome => by
        rw [hcount]
        exact h.bucket bucket (hclients ▸ hsome)
      gone := fun hnone => by
        rw [hcount]
        exact h.gone (hclients ▸ hnone) }

/-- A tick that forgets a bucket only where it would be full. -/
theorem spent_tick {first last latest now : Int} (hlate : latest ≤ now)
    (hfull : ∀ bucket, run.limiter.clients ip = some bucket → bucket.lastSeen < now - rateCleanup →
      (burst : ℚ) ≤ bucket.tokens + earned rate (now - bucket.lastSeen))
    (h : Spent rate burst ip run first last latest) :
    Spent rate burst ip (run.step (.tick now)) first last now := by
  have hclients : (run.step (.tick now)).limiter.clients ip =
      (run.limiter.clients ip).filter fun bucket => !(bucket.lastSeen < now - rateCleanup) := rfl
  refine
    { ordered := ⟨h.ordered.1, h.ordered.2.trans hlate⟩
      first_call := h.first_call
      last_call := h.last_call
      granted := h.granted
      bucket := fun bucket hsome => ?_
      gone := fun hnone => ?_ }
  · rw [hclients] at hsome
    exact h.bucket bucket (Option.filter_eq_some_iff.mp hsome).1
  · show (grants ip run.answers : ℚ) ≤ earned rate (now - first)
    cases hbucket : run.limiter.clients ip with
    | none => exact (h.gone hbucket).trans (earned_mono rate (by omega))
    | some bucket =>
      -- the bucket is deleted now, and what it lacks has been earned since its last call
      rw [hclients, hbucket] at hnone
      have hidle : bucket.lastSeen < now - rateCleanup := by
        by_contra hrecent
        rw [Option.filter_some_pos (by simpa using hrecent)] at hnone
        cases hnone
      obtain ⟨hseen, hcovered⟩ := h.bucket bucket hbucket
      have hlack := hfull bucket hbucket hidle
      have hadd := earned_add rate (last - first) (now - last)
      rw [show last - first + (now - last) = now - first by omega] at hadd
      rw [hseen] at hlack
      linarith

theorem unseen_other {now : Int} {other : String} (hother : other ≠ ip) (h : Unseen ip run) :
    Unseen ip (run.step (.allow other now)) := by
  obtain ⟨-, -, -, -, hsame⟩ := allowAt_spec run.limiter other now
  refine ⟨fun answer hanswer => ?_, (hsame ip (Ne.symm hother)).trans h.bucket⟩
  rcases List.mem_append.mp hanswer with hold | hnew
  · exact h.answers answer hold
  · rw [List.mem_singleton.mp hnew]
    exact hother

theorem unseen_tick {now : Int} (h : Unseen ip run) : Unseen ip (run.step (.tick now)) := by
  refine ⟨h.answers, ?_⟩
  show (run.limiter.clients ip).filter _ = none
  rw [h.bucket]
  rfl

theorem Unseen.grants_eq (h : Unseen ip run) : grants ip run.answers = 0 :=
  List.countP_eq_zero.mpr fun answer hanswer => by
    simpa using fun hip => absurd hip (h.answers answer hanswer)

theorem clientTimes_append (ip : String) (events : List RateEvent) (event : RateEvent) :
    clientTimes ip (events ++ [event]) = clientTimes ip events ++ clientTimes ip [event] :=
  List.filterMap_append

theorem Forward.of_append {event : RateEvent} (h : Forward rate burst ip (events ++ [event])) :
    Forward rate burst ip events where
  times := by
    have := h.times
    rw [clientTimes_append] at this
    exact (List.pairwise_append.mp this).1
  deleted := fun before now after bucket hsplit =>
    h.deleted before now (after ++ [event]) bucket (by rw [hsplit, List.append_assoc]; rfl)

/-- The last of the times. -/
theorem Forward.le_last {event : RateEvent} (h : Forward rate burst ip (events ++ [event]))
    {t now : Int} (ht : t ∈ clientTimes ip events) (hnow : now ∈ clientTimes ip [event]) :
    t ≤ now := by
  have := h.times
  rw [clientTimes_append] at this
  exact (List.pairwise_append.mp this).2.2 t ht now hnow

/-- A client whose calls do not go back in time stays within what it has earned. -/
theorem spent_run (h : Forward rate burst ip events) :
    Unseen ip (rateRun rate burst events) ∨ ∃ first last latest,
      Spent rate burst ip (rateRun rate burst events) first last latest ∧
        latest ∈ clientTimes ip events := by
  induction events using List.reverseRecOn with
  | nil => exact .inl ⟨nofun, rfl⟩
  | append_singleton events event ih =>
    obtain ⟨hrate, hburst⟩ := settings_rateRun rate burst events
    rw [rateRun_append]
    have hbefore := ih h.of_append
    generalize hrun : rateRun rate burst events = run at hbefore hrate hburst ⊢
    cases event with
    | allow other now =>
      by_cases hip : other = ip
      · subst hip
        have hnow : now ∈ clientTimes other [.allow other now] := by simp [clientTimes]
        have hlatest : now ∈ clientTimes other (events ++ [.allow other now]) := by
          rw [clientTimes_append]
          exact List.mem_append_right _ hnow
        have hfull := refilled_le_burst run.limiter (run.limiter.bucketAt other now) now
        rw [hburst] at hfull
        right
        rcases hbefore with hunseen | ⟨first, last, latest, hspent, htime⟩
        · refine ⟨now, now, now, spent_call le_rfl (.inl rfl) ?_ ?_, hlatest⟩
          · have := earned_nonneg rate (show 0 ≤ now - now by omega)
            have hb : (0 : ℚ) ≤ burst := Nat.cast_nonneg burst
            rw [hunseen.grants_eq]
            push_cast
            linarith
          · have := earned_nonneg rate (show 0 ≤ now - now by omega)
            rw [hunseen.grants_eq]
            push_cast
            linarith
        · have hlate := h.le_last htime hnow
          have hordered := hspent.ordered
          have hgrants : (grants other run.answers : ℚ) ≤ burst + earned rate (now - first) := by
            have := hspent.granted
            have := earned_mono rate (show last - first ≤ now - first by omega)
            linarith
          refine ⟨first, now, now, spent_call (by omega) (.inr hspent.first_call) hgrants ?_, hlatest⟩
          cases hbucket : run.limiter.clients other with
          | none =>
            have := hspent.gone hbucket
            have := earned_mono rate (show latest - first ≤ now - first by omega)
            linarith
          | some bucket =>
            obtain ⟨hseen, hcovered⟩ := hspent.bucket bucket hbucket
            have hat : run.limiter.bucketAt other now = bucket := by
              rw [RateLimiter.bucketAt, hbucket, Option.getD_some]
            have hgain := refilled_le run.limiter (show bucket.lastSeen ≤ now by omega)
            have hadd := earned_add rate (last - first) (now - last)
            rw [show last - first + (now - last) = now - first by omega] at hadd
            rw [hrate, hseen] at hgain
            rw [hat]
            linarith
      · rcases hbefore with hunseen | ⟨first, last, latest, hspent, htime⟩
        · exact .inl (unseen_other hip hunseen)
        · refine .inr ⟨first, last, latest, spent_other hip hspent, ?_⟩
          rw [clientTimes_append]
          exact List.mem_append_left _ htime
    | tick now =>
      have hnow : now ∈ clientTimes ip [.tick now] := by simp [clientTimes]
      rcases hbefore with hunseen | ⟨first, last, latest, hspent, htime⟩
      · exact .inl (unseen_tick hunseen)
      · refine .inr ⟨first, last, now, spent_tick (h.le_last htime hnow) ?_ hspent, ?_⟩
        · intro bucket hbucket hidle
          exact h.deleted events now [] bucket rfl (by rw [hrun]; exact hbucket) hidle
        · rw [clientTimes_append]
          exact List.mem_append_right _ hnow

/-! ## Deleted buckets -/

theorem refilled_nonneg (rl : RateLimiter) {bucket : RateBucket} (now : Int)
    (h : 0 ≤ bucket.tokens) : 0 ≤ rl.refilled bucket now := by
  have hrate : (0 : ℚ) ≤ rl.rate := Nat.cast_nonneg _
  have hgain : 0 ≤ (if 0 < now - bucket.lastSeen then
      bucket.tokens + seconds (now - bucket.lastSeen) * rl.rate / 60 else bucket.tokens) := by
    split
    · have := earned_nonneg rl.rate (show 0 ≤ now - bucket.lastSeen by omega)
      unfold earned at this
      linarith
    · exact h
  unfold RateLimiter.refilled
  dsimp only
  generalize (if 0 < now - bucket.lastSeen then
    bucket.tokens + seconds (now - bucket.lastSeen) * rl.rate / 60 else bucket.tokens) = tokens
    at hgain ⊢
  split
  · exact Nat.cast_nonneg _
  · exact hgain

/-- No bucket is ever in debt. -/
theorem tokens_nonneg (rate burst : Nat) (events : List RateEvent) (ip : String)
    (bucket : RateBucket)
    (h : (rateRun rate burst events).limiter.clients ip = some bucket) : 0 ≤ bucket.tokens := by
  induction events using List.reverseRecOn generalizing bucket with
  | nil => cases h
  | append_singleton events event ih =>
    rw [rateRun_append] at h
    cases event with
    | allow other now =>
      obtain ⟨tokens, htokens, hbucket, hallowed, hsame⟩ :=
        allowAt_spec (rateRun rate burst events).limiter other now
      change ((rateRun rate burst events).limiter.allowAt other now).2.clients ip = _ at h
      by_cases hip : ip = other
      · subst hip
        have hold : 0 ≤ ((rateRun rate burst events).limiter.bucketAt ip now).tokens := by
          unfold RateLimiter.bucketAt
          cases hclient : (rateRun rate burst events).limiter.clients ip with
          | none => exact Nat.cast_nonneg _
          | some old => exact ih old hclient
        have hrefilled := refilled_nonneg (rateRun rate burst events).limiter now hold
        rw [hbucket] at h
        obtain rfl := Option.some.inj h
        dsimp only
        split
        · rename_i hyes
          have := hallowed.mp hyes
          linarith
        · rw [htokens]
          exact hrefilled
      · exact ih bucket ((hsame ip hip) ▸ h)
    | tick now => exact ih bucket (Option.filter_eq_some_iff.mp h).1

/-- Where five minutes earn the burst, as they do at the settings of the server, a tick deletes
full buckets only. -/
theorem forward_of_times (hburst : burst ≤ 5 * rate)
    (htimes : (clientTimes ip events).Pairwise (· ≤ ·)) : Forward rate burst ip events where
  times := htimes
  deleted := fun before now _ bucket _ hbucket hidle => by
    have hnonneg := tokens_nonneg rate burst before ip bucket hbucket
    have hfive : earned rate rateCleanup = 5 * rate := by
      unfold earned seconds rateCleanup
      norm_num
      ring
    have hearned := earned_mono rate (show rateCleanup ≤ now - bucket.lastSeen by omega)
    have hcast : (burst : ℚ) ≤ 5 * rate := by exact_mod_cast hburst
    linarith

end Steps

/-! ## The budget -/

/-- A client whose calls do not go back in time stays within its budget, and a call is refused where
the bucket holds less than one token, and only there. -/
theorem forward_stays_within_budget {rate burst : Nat} {ip : String} {events : List RateEvent}
    (h : Forward rate burst ip events) :
    WithinBudget rate burst ip events ∧
      ∀ (rl : RateLimiter) (client : String) (now : Int),
        (rl.allowAt client now).1 = false ↔ rl.refilled (rl.bucketAt client now) now < 1 := by
  constructor
  · intro first last hle hspan
    rcases spent_run h with hunseen | ⟨earliest, latest, seen, hspent, -⟩
    · have := earned_nonneg rate (show 0 ≤ last - first by omega)
      have hb : (0 : ℚ) ≤ burst := Nat.cast_nonneg burst
      rw [hunseen.grants_eq]
      push_cast
      linarith
    · obtain ⟨first_answer, hfirst, hfirst_ip, hfirst_now⟩ := hspent.first_call
      obtain ⟨last_answer, hlast, hlast_ip, hlast_now⟩ := hspent.last_call
      have hlow := (hspan first_answer hfirst hfirst_ip).1
      have hhigh := (hspan last_answer hlast hlast_ip).2
      have := earned_mono rate (show latest - earliest ≤ last - first by omega)
      have := hspent.granted
      linarith
  · intro rl client now
    unfold RateLimiter.allowAt
    dsimp only
    split
    · rename_i hless
      exact iff_of_true rfl hless
    · rename_i henough
      exact iff_of_false (by nofun) henough

/-- At the settings of the server, with a tick between the calls. -/
theorem forward_stays_within_budget_after_tick :
    let events := [.allow "203.0.113.10" 0, .tick 300000000001, .allow "203.0.113.10" 300000000002]
    WithinBudget 60 30 "203.0.113.10" events ∧
      ∀ (rl : RateLimiter) (client : String) (now : Int),
        (rl.allowAt client now).1 = false ↔ rl.refilled (rl.bucketAt client now) now < 1 :=
  forward_stays_within_budget (forward_of_times (by decide) (by decide))

/-- A client that uses up its burst, and then alternates between two times. -/
def backAndForth : List RateEvent :=
  List.replicate 30 (.allow "203.0.113.10" 0) ++
    [.allow "203.0.113.10" 1000000000, .allow "203.0.113.10" 0, .allow "203.0.113.10" 1000000000]

/-- The second that was spent is earned again once a call has gone back before it. -/
theorem earns_the_same_time_twice :
    ¬ ∀ (rate burst : Nat) (ip : String) (events : List RateEvent),
      WithinBudget rate burst ip events := by
  intro h
  have hspan : ∀ answer ∈ (rateRun 60 30 backAndForth).answers, answer.ip = "203.0.113.10" →
      0 ≤ answer.now ∧ answer.now ≤ 1000000000 := by decide +kernel
  have hgrants : grants "203.0.113.10" (rateRun 60 30 backAndForth).answers = 32 := by
    decide +kernel
  have hbudget := h 60 30 "203.0.113.10" backAndForth 0 1000000000 (by decide) hspan
  rw [hgrants] at hbudget
  unfold earned seconds at hbudget
  norm_num at hbudget

end CartoLive.Theorems.RateLimit
