import CartoLive.Lib.Recency
import Mathlib.Algebra.Order.Floor.Ring
import Mathlib.Algebra.Order.Ring.Rat
import Mathlib.Data.Rat.Floor

/-!
# Recently seen identities

`RecentIdentityTracker` of the map: the keys of live events that were seen within a
time, up to a number of them. Its `Map` is the list of its entries in the order of
insertion, and its clock is exact.
-/

namespace CartoLive.Web

structure RecentIdentityTracker where
  maxEntries : Nat
  ttlMs : ℚ
  entries : List (String × ℚ)
  one_le_maxEntries : 1 ≤ maxEntries
  one_le_ttlMs : 1 ≤ ttlMs
  nodup : (entries.map Prod.fst).Nodup

namespace RecentIdentityTracker

/-- The constructor. -/
def new (maxEntries ttlMs : ℚ) : RecentIdentityTracker where
  maxEntries := (max 1 ⌊maxEntries⌋).toNat
  ttlMs := max 1 ttlMs
  entries := []
  one_le_maxEntries := by omega
  one_le_ttlMs := le_max_left _ _
  nodup := List.nodup_nil

/-- The loop of `prune`, which ends at the first entry that is not too old. -/
def prune (s : RecentIdentityTracker) (now : ℚ) : RecentIdentityTracker :=
  { s with
    entries := s.entries.dropWhile fun entry => entry.2 < now - s.ttlMs
    nodup := s.nodup.sublist ((List.dropWhile_sublist _).map _) }

/-- `entries.delete(key)`, then `entries.set(key, now)`. -/
def moved (s : RecentIdentityTracker) (key : String) (now : ℚ) : List (String × ℚ) :=
  (s.entries.filter fun entry => entry.1 ≠ key) ++ [(key, now)]

/-- The loop that drops the oldest entries. -/
def evict (maxEntries : Nat) : List (String × ℚ) → List (String × ℚ)
  | [] => []
  | oldest :: rest =>
    if maxEntries < (oldest :: rest).length then evict maxEntries rest else oldest :: rest

theorem evict_eq_drop (maxEntries : Nat) (entries : List (String × ℚ)) :
    evict maxEntries entries = entries.drop (entries.length - maxEntries) := by
  induction entries with
  | nil => rw [evict, List.drop_nil]
  | cons oldest rest ih =>
    rw [evict]
    split
    · rename_i hlong
      rw [List.length_cons] at hlong ⊢
      rw [ih, Nat.succ_sub (by omega), List.drop_succ_cons]
    · rename_i hshort
      rw [Nat.sub_eq_zero_of_le (by omega), List.drop_zero]

theorem nodup_moved (s : RecentIdentityTracker) (key : String) (now : ℚ) :
    ((s.moved key now).map Prod.fst).Nodup := by
  rw [moved, List.map_append, List.map_singleton, List.nodup_append]
  refine ⟨s.nodup.sublist (List.filter_sublist.map _), List.nodup_singleton _, ?_⟩
  rintro other hother same hsame rfl
  obtain ⟨entry, hentry, hkey⟩ := List.mem_map.mp hother
  rw [List.mem_singleton.mp hsame] at hkey
  simp [hkey] at hentry

/-- `remember`, and what it returns. -/
def remember (s : RecentIdentityTracker) (key : String) (now : ℚ) : RecentIdentityTracker × Bool :=
  let s := s.prune now
  let evicted : RecentIdentityTracker :=
    { s with
      entries := evict s.maxEntries (s.moved key now)
      nodup := by
        rw [evict_eq_drop]
        exact (s.nodup_moved key now).sublist ((List.drop_sublist _ _).map _) }
  match s.entries.lookup key with
  | some seenAt =>
    if now - seenAt ≤ s.ttlMs then
      ({ s with entries := s.moved key now, nodup := s.nodup_moved key now }, false)
    else (evicted, true)
  | none => (evicted, true)

end RecentIdentityTracker

end CartoLive.Web
