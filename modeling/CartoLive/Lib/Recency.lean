import Mathlib.Data.List.Dedup
import Mathlib.Data.List.Nodup
import Mathlib.Data.List.Pairwise
import Mathlib.Data.List.Perm.Basic
import Mathlib.Order.Basic
import Mathlib.Order.Lattice

/-!
# The last uses of keys

A history of uses, the newest first, each of a key at a time. Of each key the last use
counts (`lastUses`), and the position of a key among the last uses is the number of
other keys that have been used since. A bounded window of them (`recent`) is kept up
use by use: a use goes to the front (`recent_cons`) and time takes from the end
(`filter_recent`). What is in the window was used not too long ago, with few enough
other keys since (`mem_keys_recent_iff`).
-/

namespace CartoLive.Lib.Recency

universe u v

variable {κ : Type u} {τ : Type v} [DecidableEq κ]

/-- Each key with its last use, the newest first. -/
def lastUses : List (κ × τ) → List (κ × τ)
  | [] => []
  | use :: history => use :: (lastUses history).filter fun other => other.1 ≠ use.1

/-! ## Last uses -/

theorem lastUses_sublist (history : List (κ × τ)) : List.Sublist (lastUses history) history := by
  induction history with
  | nil => exact .slnil
  | cons use history ih => exact (List.filter_sublist.trans ih).cons_cons use

theorem nodup_keys_lastUses (history : List (κ × τ)) :
    ((lastUses history).map Prod.fst).Nodup := by
  induction history with
  | nil => exact List.nodup_nil
  | cons use history ih =>
    rw [lastUses, List.map_cons, List.nodup_cons]
    refine ⟨fun hmem => ?_, ih.sublist (List.filter_sublist.map _)⟩
    obtain ⟨other, hother, hkey⟩ := List.mem_map.mp hmem
    simp [hkey] at hother

theorem mem_keys_lastUses {history : List (κ × τ)} {k : κ} :
    k ∈ (lastUses history).map Prod.fst ↔ k ∈ history.map Prod.fst := by
  induction history with
  | nil => rfl
  | cons use history ih =>
    by_cases hk : k = use.1
    · simp [lastUses, hk]
    · have hother : k ∈ ((lastUses history).filter fun other => other.1 ≠ use.1).map Prod.fst ↔
          k ∈ (lastUses history).map Prod.fst := by
        constructor
        · exact fun h => (List.filter_sublist.map Prod.fst).subset h
        · intro h
          obtain ⟨other, hmem, rfl⟩ := List.mem_map.mp h
          exact List.mem_map_of_mem (List.mem_filter.mpr ⟨hmem, by simpa using hk⟩)
      rw [lastUses, List.map_cons, List.map_cons, List.mem_cons, List.mem_cons, hother, ih]

/-- The last uses of each key count the keys. -/
theorem length_lastUses (history : List (κ × τ)) :
    (lastUses history).length = (history.map Prod.fst).dedup.length := by
  have hperm : ((lastUses history).map Prod.fst).Perm (history.map Prod.fst).dedup := by
    refine (List.perm_ext_iff_of_nodup (nodup_keys_lastUses _) (List.nodup_dedup _)).mpr ?_
    intro k
    rw [mem_keys_lastUses, List.mem_dedup]
  rw [← List.length_map Prod.fst, hperm.length_eq]

theorem lastUses_append (newer older : List (κ × τ)) :
    lastUses (newer ++ older) =
      lastUses newer ++ (lastUses older).filter fun use => use.1 ∉ newer.map Prod.fst := by
  induction newer with
  | nil => simp [lastUses]
  | cons use newer ih =>
    rw [List.cons_append, lastUses, ih, List.filter_append, List.filter_filter, lastUses,
      List.cons_append]
    congr 2
    refine List.filter_congr fun other _ => ?_
    by_cases hkey : other.1 = use.1 <;> simp [hkey]

/-- The use of a key that has not been used since, among the last uses. -/
theorem lastUses_append_cons {newer : List (κ × τ)} {use : κ × τ}
    (h : use.1 ∉ newer.map Prod.fst) (older : List (κ × τ)) :
    ∃ rest, lastUses (newer ++ use :: older) = lastUses newer ++ use :: rest := by
  rw [lastUses_append, lastUses, List.filter_cons_of_pos (by simpa using h)]
  exact ⟨_, rfl⟩

/-- A last use splits the history. -/
theorem exists_of_mem_lastUses {history : List (κ × τ)} {use : κ × τ}
    (h : use ∈ lastUses history) :
    ∃ newer older, history = newer ++ use :: older ∧ use.1 ∉ newer.map Prod.fst := by
  induction history with
  | nil => cases h
  | cons first history ih =>
    rcases List.mem_cons.mp h with rfl | hmem
    · exact ⟨[], history, rfl, List.not_mem_nil⟩
    · obtain ⟨hrest, hother⟩ := List.mem_filter.mp hmem
      obtain ⟨newer, older, rfl, hnew⟩ := ih hrest
      refine ⟨first :: newer, older, rfl, ?_⟩
      rw [List.map_cons, List.mem_cons, not_or]
      exact ⟨by simpa using hother, hnew⟩

/-- Without a key, the first of the uses with room for it are the first of the others. -/
theorem take_filter_key {uses : List (κ × τ)} (h : (uses.map Prod.fst).Nodup) (k : κ)
    (limit : Nat) :
    ((uses.take (limit + 1)).filter fun use => use.1 ≠ k).take limit =
      (uses.filter fun use => use.1 ≠ k).take limit := by
  induction uses generalizing limit with
  | nil => simp
  | cons use uses ih =>
    rw [List.map_cons, List.nodup_cons] at h
    rw [List.take_succ_cons]
    by_cases hk : use.1 = k
    · -- no later use is of the key
      have hothers : ∀ l : List (κ × τ), l ⊆ uses → (l.filter fun use => use.1 ≠ k) = l := by
        intro l hl
        rw [List.filter_eq_self]
        intro other hother
        have hne : other.1 ≠ k := fun heq =>
          h.1 (hk ▸ heq ▸ List.mem_map_of_mem (f := Prod.fst) (hl hother))
        simpa using hne
      rw [List.filter_cons_of_neg (by simpa using hk), List.filter_cons_of_neg (by simpa using hk),
        hothers _ (List.take_subset _ _), hothers _ (List.Subset.refl _), List.take_take,
        Nat.min_self]
    · rw [List.filter_cons_of_pos (by simpa using hk), List.filter_cons_of_pos (by simpa using hk)]
      cases limit with
      | zero => rfl
      | succ limit => rw [List.take_succ_cons, List.take_succ_cons, ih h.2]

/-! ## The window -/

variable [LinearOrder τ]

/-- The uses are in the order of their times. -/
def Ordered (history : List (κ × τ)) : Prop := history.Pairwise fun a b => b.2 ≤ a.2

/-- The last uses from a time on, up to a number of them. -/
def recent (limit : Nat) (cutoff : τ) (history : List (κ × τ)) : List (κ × τ) :=
  ((lastUses history).filter fun use => cutoff ≤ use.2).take limit

omit [DecidableEq κ] in
/-- The recent ones among the first uses are the first of the recent ones. -/
theorem filter_time_take {uses : List (κ × τ)} (h : Ordered uses) (limit : Nat) (cutoff : τ) :
    (uses.take limit).filter (fun use => cutoff ≤ use.2) =
      (uses.filter fun use => cutoff ≤ use.2).take limit := by
  induction uses generalizing limit with
  | nil => simp
  | cons use uses ih =>
    obtain ⟨hfirst, hrest⟩ := List.pairwise_cons.mp h
    cases limit with
    | zero => simp
    | succ limit =>
      rw [List.take_succ_cons]
      by_cases hfresh : cutoff ≤ use.2
      · rw [List.filter_cons_of_pos (by simpa using hfresh),
          List.filter_cons_of_pos (by simpa using hfresh), List.take_succ_cons, ih hrest]
      · -- what comes later is older still
        have hold : ∀ other ∈ use :: uses, ¬(decide (cutoff ≤ other.2) = true) := by
          intro other hother
          rw [decide_eq_true_eq]
          rcases List.mem_cons.mp hother with rfl | hmem
          · exact hfresh
          · exact fun hle => hfresh (hle.trans (hfirst other hmem))
        rw [List.filter_eq_nil_iff.mpr hold, List.take_nil, List.filter_eq_nil_iff]
        intro other hother
        exact hold other (List.mem_of_mem_take (i := limit + 1) (by simpa using hother))

theorem ordered_lastUses {history : List (κ × τ)} (h : Ordered history) :
    Ordered (lastUses history) := List.Pairwise.sublist (lastUses_sublist history) h

/-- Time takes from the window. -/
theorem filter_recent {history : List (κ × τ)} (h : Ordered history) (limit : Nat)
    {cutoff later : τ} (hle : cutoff ≤ later) :
    (recent limit cutoff history).filter (fun use => later ≤ use.2) =
      recent limit later history := by
  have hordered : Ordered ((lastUses history).filter fun use => cutoff ≤ use.2) :=
    (ordered_lastUses h).sublist List.filter_sublist
  rw [recent, filter_time_take hordered, List.filter_filter, recent]
  congr 1
  refine List.filter_congr fun use _ => ?_
  by_cases hlater : later ≤ use.2
  · simp [hlater, hle.trans hlater]
  · simp [hlater]

/-- A use goes to the front of the window, and its key's last use out of it. -/
theorem recent_cons (limit : Nat) {cutoff : τ} {use : κ × τ} (hfresh : cutoff ≤ use.2)
    (history : List (κ × τ)) :
    recent (limit + 1) cutoff (use :: history) =
      use ::
        ((recent (limit + 1) cutoff history).filter fun other => other.1 ≠ use.1).take limit := by
  have hnodup : (((lastUses history).filter fun other => cutoff ≤ other.2).map Prod.fst).Nodup :=
    (nodup_keys_lastUses history).sublist (List.filter_sublist.map _)
  rw [recent, lastUses, List.filter_cons_of_pos (by simpa using hfresh), List.take_succ_cons,
    recent, take_filter_key hnodup, List.filter_filter, List.filter_filter]
  congr 2
  exact List.filter_congr fun other _ => Bool.and_comm _ _

/-- A key is in the window if and only if its last use was not too long ago, and few enough other
keys have been used since. -/
theorem mem_keys_recent_iff {history : List (κ × τ)} (h : Ordered history) (limit : Nat)
    (cutoff : τ) (k : κ) :
    k ∈ (recent limit cutoff history).map Prod.fst ↔
      ∃ newer t older, history = newer ++ (k, t) :: older ∧ k ∉ newer.map Prod.fst ∧
        cutoff ≤ t ∧ (newer.map Prod.fst).dedup.length < limit := by
  have hsplit : ∀ {newer older : List (κ × τ)} {t : τ}, history = newer ++ (k, t) :: older →
      k ∉ newer.map Prod.fst → cutoff ≤ t →
      ∃ rest, ((lastUses history).filter fun use => cutoff ≤ use.2) =
        lastUses newer ++ (k, t) :: rest := by
    intro newer older t heq hnew hfresh
    obtain ⟨rest, hrest⟩ : ∃ rest, lastUses (newer ++ (k, t) :: older) =
        lastUses newer ++ (k, t) :: rest := lastUses_append_cons hnew older
    -- what has been used since is not older
    have hnewer : (lastUses newer).filter (fun use => cutoff ≤ use.2) = lastUses newer := by
      rw [List.filter_eq_self]
      intro use huse
      have hmem := (lastUses_sublist newer).subset huse
      rw [heq] at h
      exact decide_eq_true (hfresh.trans ((List.pairwise_append.mp h).2.2 use hmem _
        List.mem_cons_self))
    rw [heq, hrest, List.filter_append, hnewer, List.filter_cons_of_pos (by simpa using hfresh)]
    exact ⟨_, rfl⟩
  constructor
  · intro hmem
    obtain ⟨⟨k', t⟩, hrecent, rfl⟩ := List.mem_map.mp hmem
    obtain ⟨hlast, hfresh⟩ := List.mem_filter.mp (List.mem_of_mem_take hrecent)
    obtain ⟨newer, older, heq, hnew⟩ := exists_of_mem_lastUses hlast
    refine ⟨newer, t, older, heq, hnew, by simpa using hfresh, ?_⟩
    obtain ⟨rest, hrest⟩ := hsplit heq hnew (by simpa using hfresh)
    by_contra hmany
    -- the use stands behind the limit, and its key nowhere else
    rw [recent, hrest, List.take_append_of_le_length (by rw [length_lastUses]; omega)] at hrecent
    exact hnew (mem_keys_lastUses.mp (List.mem_map_of_mem (List.mem_of_mem_take hrecent)))
  · rintro ⟨newer, t, older, heq, hnew, hfresh, hfew⟩
    obtain ⟨rest, hrest⟩ := hsplit heq hnew hfresh
    refine List.mem_map.mpr ⟨(k, t), ?_, rfl⟩
    rw [recent, hrest, ← length_lastUses] at *
    have htake : (lastUses newer ++ (k, t) :: rest).take limit =
        lastUses newer ++ ((k, t) :: rest).take (limit - (lastUses newer).length) := by
      rw [List.take_append, List.take_of_length_le (Nat.le_of_lt hfew)]
    obtain ⟨extra, hextra⟩ := Nat.exists_eq_add_of_lt hfew
    rw [htake, show limit - (lastUses newer).length = extra + 1 by omega, List.take_succ_cons]
    exact List.mem_append_right _ List.mem_cons_self

end CartoLive.Lib.Recency

/-!
## A bounded cache

A cache that keeps its entries in the order of their last use, one entry for a
key, and drops the entries used longest ago. What a cache holds was stored
(`mem_store`), and it never holds more than its limit (`length_store_le`).
-/

namespace CartoLive.Lib

universe u v

/-- Entries of different keys, the one used last first. -/
structure Lru (κ : Type u) (ν : Type v) where
  entries : List (κ × ν)
  nodup : (entries.map Prod.fst).Nodup
  deriving DecidableEq

namespace Lru

variable {κ : Type u} {ν : Type v} [DecidableEq κ]

/-- The cache without entries. -/
def empty : Lru κ ν := ⟨[], List.nodup_nil⟩

/-- The entries of other keys. -/
def others (c : Lru κ ν) (k : κ) : List (κ × ν) := c.entries.filter fun e => e.1 ≠ k

theorem nodup_cons_others (c : Lru κ ν) (k : κ) (v : ν) :
    (((k, v) :: c.others k).map Prod.fst).Nodup := by
  refine List.nodup_cons.mpr ⟨fun hin => ?_, c.nodup.sublist (List.filter_sublist.map _)⟩
  obtain ⟨e, he, hk⟩ := List.mem_map.mp hin
  exact of_decide_eq_true (List.mem_filter.mp he).2 hk

def find (c : Lru κ ν) (k : κ) : Option ν := c.entries.lookup k

/-- The entry of a key that is found becomes the first. -/
def touch (c : Lru κ ν) (k : κ) : Lru κ ν :=
  match c.find k with
  | some v => ⟨(k, v) :: c.others k, c.nodup_cons_others k v⟩
  | none => c

/-- Stores an entry as the first and drops entries over the limit; a cache without
a limit above zero stores nothing. -/
def store (limit : Int) (c : Lru κ ν) (k : κ) (v : ν) : Lru κ ν :=
  if 0 < limit then
    ⟨((k, v) :: c.others k).take limit.toNat,
      (c.nodup_cons_others k v).sublist ((List.take_sublist _ _).map _)⟩
  else c

/-! ## What a cache holds -/

variable {c : Lru κ ν} {k : κ} {v : ν} {e : κ × ν}

theorem mem_of_find (h : c.find k = some v) : (k, v) ∈ c.entries := by
  obtain ⟨before, after, hsplit, -⟩ := List.lookup_eq_some_iff.mp h
  rw [hsplit]
  exact List.mem_append_right _ List.mem_cons_self

theorem mem_of_mem_others (h : e ∈ c.others k) : e ∈ c.entries := (List.mem_filter.mp h).1

theorem mem_touch (h : e ∈ (c.touch k).entries) : e ∈ c.entries := by
  unfold touch at h
  split at h
  · rename_i v hfind
    rcases List.mem_cons.mp h with rfl | hother
    · exact mem_of_find hfind
    · exact mem_of_mem_others hother
  · exact h

theorem mem_store {limit : Int} (h : e ∈ (store limit c k v).entries) :
    e = (k, v) ∨ e ∈ c.entries := by
  unfold store at h
  split at h
  · exact (List.mem_cons.mp (List.mem_of_mem_take h)).imp_right mem_of_mem_others
  · exact .inr h

/-! ## How many entries -/

theorem length_touch_le : (c.touch k).entries.length ≤ c.entries.length := by
  unfold touch
  split
  · rename_i v hfind
    -- the entry that becomes the first was among the others
    have hfewer : (c.others k).length < c.entries.length :=
      List.length_filter_lt_length_iff_exists.mpr ⟨(k, v), mem_of_find hfind, by simp⟩
    exact hfewer
  · exact Nat.le_refl _

theorem length_store_le {limit : Int} (h : c.entries.length ≤ limit.toNat) :
    (store limit c k v).entries.length ≤ limit.toNat := by
  unfold store
  split
  · exact List.length_take_le _ _
  · exact h

end Lru

end CartoLive.Lib
