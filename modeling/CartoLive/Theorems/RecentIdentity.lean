import CartoLive.Web.RecentIdentity
import Mathlib.Data.List.Induction

/-!
# The tracker of recent identities is a sliding window

`remember` says no exactly for a key that it has remembered not too long ago, with fewer
other keys since than the tracker has room for. The tracker keeps the window of the last
uses of all keys (`Tracks`).

## Main results

* `remember_eq_false_iff` : when `remember` says no, and the order and number of the entries.
* `remember_without_room` : a tracker made for no entries has room for one.
-/

namespace CartoLive.Theorems.RecentIdentity

open CartoLive.Lib.Recency CartoLive.Web

/-- A call of one of the two methods. -/
inductive TrackerCall
  | remember (key : String) (now : ℚ)
  | prune (now : ℚ)
  deriving DecidableEq

namespace TrackerCall

/-- The time of a call. -/
def now : TrackerCall → ℚ
  | .remember _ now => now
  | .prune now => now

/-- What a call uses. -/
def use : TrackerCall → Option (String × ℚ)
  | .remember key now => some (key, now)
  | .prune _ => none

end TrackerCall

/-- The tracker after a call. -/
def step (s : RecentIdentityTracker) : TrackerCall → RecentIdentityTracker
  | .remember key now => (s.remember key now).1
  | .prune now => s.prune now

def run (s : RecentIdentityTracker) (calls : List TrackerCall) : RecentIdentityTracker :=
  calls.foldl step s

/-- The uses of keys by some calls, the newest first. -/
def uses (calls : List TrackerCall) : List (String × ℚ) := (calls.filterMap TrackerCall.use).reverse

/-- The times of the calls do not decrease. -/
def Clocked (calls : List TrackerCall) : Prop := calls.Pairwise fun a b => a.now ≤ b.now

/-! ## What the tracker keeps -/

/-- The entries, the newest first, are the window of a history at a time. -/
def Tracks (s : RecentIdentityTracker) (history : List (String × ℚ)) (now : ℚ) : Prop :=
  s.entries.reverse = recent s.maxEntries (now - s.ttlMs) history

variable {s : RecentIdentityTracker} {history : List (String × ℚ)} {before now : ℚ}

theorem Tracks.entries_eq (h : Tracks s history now) :
    s.entries = (recent s.maxEntries (now - s.ttlMs) history).reverse := by
  rw [← h, List.reverse_reverse]

/-- The entries are in the order of their times. -/
theorem Tracks.pairwise (h : Tracks s history now) (hordered : Ordered history) :
    s.entries.Pairwise fun a b => a.2 ≤ b.2 := by
  rw [h.entries_eq, List.pairwise_reverse]
  exact (ordered_lastUses hordered).sublist ((List.take_sublist _ _).trans List.filter_sublist)

theorem Tracks.length_le (h : Tracks s history now) : s.entries.length ≤ s.maxEntries := by
  rw [h.entries_eq, List.length_reverse]
  exact List.length_take_le _ _

/-- What a pruning loop keeps of ordered entries. -/
theorem dropWhile_eq_filter {entries : List (String × ℚ)} (cutoff : ℚ)
    (h : entries.Pairwise fun a b => a.2 ≤ b.2) :
    (entries.dropWhile fun entry => entry.2 < cutoff) =
      entries.filter fun entry => cutoff ≤ entry.2 := by
  induction entries with
  | nil => rfl
  | cons entry rest ih =>
    obtain ⟨hfirst, hrest⟩ := List.pairwise_cons.mp h
    by_cases hold : entry.2 < cutoff
    · rw [List.dropWhile_cons_of_pos (by simpa using hold),
        List.filter_cons_of_neg (by simpa using hold), ih hrest]
    · rw [List.dropWhile_cons_of_neg (by simpa using hold)]
      refine (List.filter_eq_self.mpr fun other hother => ?_).symm
      have hle : cutoff ≤ entry.2 := not_lt.mp hold
      rcases List.mem_cons.mp hother with rfl | hmem
      · exact decide_eq_true hle
      · exact decide_eq_true (hle.trans (hfirst other hmem))

theorem Tracks.prune (h : Tracks s history before) (hordered : Ordered history)
    (hle : before ≤ now) : Tracks (s.prune now) history now := by
  unfold Tracks RecentIdentityTracker.prune
  dsimp only
  rw [dropWhile_eq_filter _ (h.pairwise hordered), ← List.filter_reverse, h,
    filter_recent hordered _ (sub_le_sub_right hle _)]

/-- The keys in the window are those of which `remember` says no. -/
theorem remember_snd (h : Tracks s history before) (hordered : Ordered history)
    (hle : before ≤ now) (key : String) :
    (s.remember key now).2 = false ↔
      key ∈ (recent s.maxEntries (now - s.ttlMs) history).map Prod.fst := by
  have hpruned : Tracks (s.prune now) history now := h.prune hordered hle
  have hkeys : key ∈ (s.prune now).entries.map Prod.fst ↔
      key ∈ (recent s.maxEntries (now - s.ttlMs) history).map Prod.fst := by
    rw [hpruned.entries_eq, List.map_reverse, List.mem_reverse]
    rfl
  rw [← hkeys]
  unfold RecentIdentityTracker.remember
  dsimp only
  cases hlookup : (s.prune now).entries.lookup key with
  | none =>
    have hnone := List.lookup_eq_none_iff.mp hlookup
    refine iff_of_false (by simp) fun hmem => ?_
    obtain ⟨entry, hentry, rfl⟩ := List.mem_map.mp hmem
    simpa using hnone entry hentry
  | some seenAt =>
    have hmem : (key, seenAt) ∈ (s.prune now).entries := by
      obtain ⟨front, rest, heq, -⟩ := List.lookup_eq_some_iff.mp hlookup
      rw [heq]
      exact List.mem_append_right _ List.mem_cons_self
    -- what has not been pruned is recent
    have hfresh : now - s.ttlMs ≤ seenAt := by
      have hfilter : (s.prune now).entries =
          s.entries.filter fun entry => now - s.ttlMs ≤ entry.2 :=
        dropWhile_eq_filter _ (h.pairwise hordered)
      rw [hfilter] at hmem
      simpa using (List.mem_filter.mp hmem).2
    have hin : now - seenAt ≤ (s.prune now).ttlMs := sub_le_comm.mp hfresh
    dsimp only
    rw [if_pos hin]
    exact iff_of_true rfl (List.mem_map_of_mem hmem)

theorem Tracks.remember (h : Tracks s history before) (hordered : Ordered history)
    (hle : before ≤ now) (key : String) :
    Tracks (s.remember key now).1 ((key, now) :: history) now := by
  have hpruned : Tracks (s.prune now) history now := h.prune hordered hle
  obtain ⟨room, hroom⟩ : ∃ room, s.maxEntries = room + 1 := ⟨s.maxEntries - 1, by
    have := s.one_le_maxEntries
    omega⟩
  have hfresh : now - s.ttlMs ≤ now := by
    have := s.one_le_ttlMs
    linarith
  -- the entries of other keys, the newest first
  have hothers : ((s.prune now).entries.filter fun entry => entry.1 ≠ key).reverse =
      (recent (room + 1) (now - s.ttlMs) history).filter fun use => use.1 ≠ key := by
    rw [← List.filter_reverse, hpruned, ← hroom]
    rfl
  have hmoved : ((s.prune now).moved key now).reverse =
      (key, now) ::
        (recent (room + 1) (now - s.ttlMs) history).filter fun use => use.1 ≠ key := by
    rw [RecentIdentityTracker.moved, List.reverse_append, hothers]
    rfl
  have hwindow : recent (room + 1) (now - s.ttlMs) ((key, now) :: history) =
      ((s.prune now).moved key now).reverse.take (room + 1) := by
    rw [recent_cons room hfresh history, hmoved, List.take_succ_cons]
  have hevict : (RecentIdentityTracker.evict s.maxEntries ((s.prune now).moved key now)).reverse =
      recent s.maxEntries (now - s.ttlMs) ((key, now) :: history) := by
    rw [RecentIdentityTracker.evict_eq_drop, hroom, hwindow, List.take_reverse]
  have hsays := remember_snd h hordered hle key
  unfold RecentIdentityTracker.remember at hsays ⊢
  dsimp only at hsays ⊢
  split
  · rename_i seenAt hlookup
    rw [hlookup] at hsays
    split
    · rename_i hrecent
      -- the key was there, so that one entry fewer is left beside it
      have hmem := hsays.mp (by dsimp only; rw [if_pos hrecent])
      have hfew : ((recent (room + 1) (now - s.ttlMs) history).filter
          fun use => use.1 ≠ key).length < room + 1 := by
        obtain ⟨use, huse, hkey⟩ := List.mem_map.mp hmem
        have hlt : ((recent (room + 1) (now - s.ttlMs) history).filter
            fun use => use.1 ≠ key).length < (recent (room + 1) (now - s.ttlMs) history).length :=
          List.length_filter_lt_length_iff_exists.mpr ⟨use, hroom ▸ huse, by simp [hkey]⟩
        exact hlt.trans_le (List.length_take_le _ _)
      show ((s.prune now).moved key now).reverse = recent s.maxEntries (now - s.ttlMs) _
      rw [hroom, hwindow, List.take_of_length_le]
      rw [hmoved, List.length_cons]
      omega
    · exact hevict
  · exact hevict

/-! ## Runs -/

@[simp] theorem maxEntries_step (s : RecentIdentityTracker) (call : TrackerCall) :
    (step s call).maxEntries = s.maxEntries := by
  cases call with
  | prune now => rfl
  | remember key now =>
    unfold step RecentIdentityTracker.remember
    dsimp only
    split
    · split <;> rfl
    · rfl

@[simp] theorem ttlMs_step (s : RecentIdentityTracker) (call : TrackerCall) :
    (step s call).ttlMs = s.ttlMs := by
  cases call with
  | prune now => rfl
  | remember key now =>
    unfold step RecentIdentityTracker.remember
    dsimp only
    split
    · split <;> rfl
    · rfl

/-- What holds after calls up to a time. -/
structure Run (s after : RecentIdentityTracker) (calls : List TrackerCall) (now : ℚ) : Prop where
  maxEntries_eq : after.maxEntries = s.maxEntries
  ttlMs_eq : after.ttlMs = s.ttlMs
  ordered : Ordered (uses calls)
  le_now : ∀ use ∈ uses calls, use.2 ≤ now
  tracks : Tracks after (uses calls) now

theorem uses_concat (calls : List TrackerCall) (call : TrackerCall) :
    uses (calls ++ [call]) = call.use.toList ++ uses calls := by
  cases call <;> simp [uses, TrackerCall.use]

theorem run_step {after : RecentIdentityTracker} {calls : List TrackerCall} {call : TrackerCall}
    (h : Run s after calls before) (hle : before ≤ call.now) :
    Run s (step after call) (calls ++ [call]) call.now := by
  have hearlier : ∀ use ∈ uses calls, use.2 ≤ call.now := fun use huse =>
    (h.le_now use huse).trans hle
  refine ⟨(maxEntries_step after call).trans h.maxEntries_eq,
    (ttlMs_step after call).trans h.ttlMs_eq, ?_, ?_, ?_⟩ <;> rw [uses_concat]
  · cases call with
    | prune now => exact h.ordered
    | remember key now => exact List.pairwise_cons.mpr ⟨hearlier, h.ordered⟩
  · cases call with
    | prune now => exact hearlier
    | remember key now =>
      intro use huse
      rcases List.mem_cons.mp huse with rfl | huse
      · exact le_refl now
      · exact hearlier use huse
  · cases call with
    | prune now => exact h.tracks.prune h.ordered hle
    | remember key now => exact h.tracks.remember h.ordered hle key

theorem tracks_empty (s : RecentIdentityTracker) (h : s.entries = []) (now : ℚ) :
    Tracks s [] now := by
  rw [Tracks, h]
  simp [recent, lastUses]

/-- A run up to any time that no call is after. -/
theorem run_run (s : RecentIdentityTracker) (h : s.entries = []) {calls : List TrackerCall}
    (hclock : Clocked calls) (hnow : ∀ call ∈ calls, call.now ≤ now) :
    ∃ before ≤ now, Run s (run s calls) calls before := by
  induction calls using List.reverseRecOn generalizing now with
  | nil => exact ⟨now, le_refl _, rfl, rfl, List.Pairwise.nil, nofun, tracks_empty s h now⟩
  | append_singleton calls call ih =>
    obtain ⟨hcalls, -, hlast⟩ := List.pairwise_append.mp hclock
    obtain ⟨before, hbefore, hrun⟩ := ih hcalls fun earlier hearlier =>
      hlast earlier hearlier call List.mem_cons_self
    refine ⟨call.now, hnow call (by simp), ?_⟩
    rw [run, List.foldl_append]
    exact run_step hrun hbefore

/-- A use splits the calls. -/
theorem exists_uses_split_iff (calls : List TrackerCall) (key : String)
    (p : ℚ → List String → Prop) (hp : ∀ t keys keys', keys.Perm keys' → p t keys → p t keys') :
    (∃ newer t older, uses calls = newer ++ (key, t) :: older ∧ key ∉ newer.map Prod.fst ∧
        p t (newer.map Prod.fst)) ↔
      ∃ earlier t since, calls = earlier ++ .remember key t :: since ∧
        key ∉ (since.filterMap TrackerCall.use).map Prod.fst ∧
        p t ((since.filterMap TrackerCall.use).map Prod.fst) := by
  constructor
  · rintro ⟨newer, t, older, heq, hnew, hpt⟩
    have hcalls : calls.filterMap TrackerCall.use = older.reverse ++ (key, t) :: newer.reverse := by
      rw [← List.reverse_reverse (calls.filterMap TrackerCall.use)]
      rw [uses] at heq
      rw [heq]
      simp
    obtain ⟨earlier, rest, rfl, -, hrest⟩ := List.filterMap_eq_append_iff.mp hcalls
    obtain ⟨skipped, call, since, rfl, -, hcall, hsince⟩ := List.filterMap_eq_cons_iff.mp hrest
    have hremember : call = .remember key t := by
      cases call with
      | prune now => cases hcall
      | remember other now =>
        cases hcall
        rfl
    subst hremember
    refine ⟨earlier ++ skipped, t, since, by simp, ?_, ?_⟩
    · rw [hsince, List.map_reverse, List.mem_reverse]
      exact hnew
    · rw [hsince, List.map_reverse]
      exact hp _ _ _ (List.reverse_perm _).symm hpt
  · rintro ⟨earlier, t, since, rfl, hnew, hpt⟩
    refine ⟨(since.filterMap TrackerCall.use).reverse, t, uses earlier, ?_, ?_, ?_⟩
    · simp [uses, TrackerCall.use]
    · rwa [List.map_reverse, List.mem_reverse]
    · rw [List.map_reverse]
      exact hp _ _ _ (List.reverse_perm _).symm hpt

/-- The distinct keys that some calls remember. -/
def distinctKeys (calls : List TrackerCall) : List String :=
  ((calls.filterMap TrackerCall.use).map Prod.fst).dedup

/-- After any calls at times that do not decrease, `remember` says no to a key if and only if its
last call was within the time of the tracker, and the calls since have remembered fewer other
keys than the tracker has room for; and its entries are in the order of their times and no more
than it has room for. -/
theorem remember_eq_false_iff (maxEntries ttlMs : ℚ) (calls : List TrackerCall) (key : String)
    (now : ℚ) (hclock : Clocked (calls ++ [.remember key now])) :
    (((run (.new maxEntries ttlMs) calls).remember key now).2 = false ↔
      ∃ earlier t since, calls = earlier ++ .remember key t :: since ∧ key ∉ distinctKeys since ∧
        now - t ≤ max 1 ttlMs ∧ ((distinctKeys since).length : ℤ) < max 1 ⌊maxEntries⌋) ∧
    (run (.new maxEntries ttlMs) calls).entries.Pairwise (fun a b => a.2 ≤ b.2) ∧
    ((run (.new maxEntries ttlMs) calls).entries.length : ℤ) ≤ max 1 ⌊maxEntries⌋ := by
  obtain ⟨hcalls, -, hlast⟩ := List.pairwise_append.mp hclock
  have hnow : ∀ call ∈ calls, call.now ≤ now := fun call hcall =>
    hlast call hcall _ List.mem_cons_self
  obtain ⟨before, hbefore, hrun⟩ := run_run (.new maxEntries ttlMs) rfl hcalls hnow
  have hroom : ((run (.new maxEntries ttlMs) calls).maxEntries : ℤ) = max 1 ⌊maxEntries⌋ := by
    rw [hrun.maxEntries_eq]
    exact Int.toNat_of_nonneg (by omega)
  refine ⟨?_, hrun.tracks.pairwise hrun.ordered, ?_⟩
  · rw [remember_snd hrun.tracks hrun.ordered hbefore, mem_keys_recent_iff hrun.ordered,
      exists_uses_split_iff calls key
        fun t keys => now - (run (.new maxEntries ttlMs) calls).ttlMs ≤ t ∧
          keys.dedup.length < (run (.new maxEntries ttlMs) calls).maxEntries]
    · have httl : (run (.new maxEntries ttlMs) calls).ttlMs = max 1 ttlMs := hrun.ttlMs_eq
      simp only [distinctKeys, List.mem_dedup, httl, ← hroom, Nat.cast_lt,
        sub_le_comm (b := max 1 ttlMs)]
    · rintro t keys keys' hperm ⟨hfresh, hfew⟩
      exact ⟨hfresh, by rwa [← hperm.dedup.length_eq]⟩
  · rw [← hroom]
    exact_mod_cast hrun.tracks.length_le

/-- A key that is remembered twice. -/
theorem remember_twice :
    ((run (.new 2 100) [.remember "a" 0, .remember "b" 10]).remember "a" 20).2 = false :=
  (remember_eq_false_iff 2 100 [.remember "a" 0, .remember "b" 10] "a" 20 (by
    norm_num [Clocked, TrackerCall.now])).1.mpr
    ⟨[], 0, [.remember "b" 10], rfl, by decide, by norm_num, by
      rw [show distinctKeys [.remember "b" 10] = ["b"] from by decide]
      norm_num⟩

/-- The room of a tracker is not the number that it was made with: made for no entries, it still
says no to the key that it has remembered last. -/
theorem remember_without_room :
    ¬∀ (maxEntries ttlMs : ℚ) (calls : List TrackerCall) (key : String) (now : ℚ),
      Clocked (calls ++ [.remember key now]) →
      (((run (.new maxEntries ttlMs) calls).remember key now).2 = false ↔
        ∃ earlier t since, calls = earlier ++ .remember key t :: since ∧ key ∉ distinctKeys since ∧
          now - t ≤ ttlMs ∧ ((distinctKeys since).length : ℚ) < maxEntries) := by
  intro h
  have hno : ((run (.new 0 100) [.remember "a" 0]).remember "a" 1).2 = false := by decide +kernel
  obtain ⟨-, -, since, -, -, -, hfew⟩ := (h 0 100 [.remember "a" 0] "a" 1 (by
    simp [Clocked, TrackerCall.now])).mp hno
  exact absurd hfew (not_lt.mpr (Nat.cast_nonneg _))

end CartoLive.Theorems.RecentIdentity
