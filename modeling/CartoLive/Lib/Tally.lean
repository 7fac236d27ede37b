import Mathlib.Algebra.BigOperators.Group.List.Basic
import Mathlib.Algebra.Order.BigOperators.Group.List
import Mathlib.Algebra.Ring.Int.Defs
import Mathlib.Data.Int.Order.Basic
import Mathlib.Data.List.Nodup
import Mathlib.Data.List.Perm.Basic

/-!
# Tallies

A table of rows with a key and a count. `tally` adds up the counts of a key, and
`bump` counts one more under a key: it changes the row of the key or appends a
new one. What the rules say: a bump keeps the keys apart and adds one to exactly
one tally (`tally_bump`), and a whole fold adds what its items weigh
(`tally_foldl`).
-/

namespace CartoLive.Lib

universe u v w

/-- How to look at a row: its key and its count. -/
structure Counting (α : Type u) (κ : Type v) where
  key : α → κ
  count : α → Int

namespace Counting

variable {α : Type u} {κ : Type v} {ι : Type w} [DecidableEq κ] (t : Counting α κ)

/-- The counts of a key. -/
def tally (k : κ) (rows : List α) : Int := ((rows.filter fun x => t.key x = k).map t.count).sum

/-- The count that a read of the key finds: no row counts as zero. -/
def countAt (k : κ) (rows : List α) : Int :=
  ((rows.find? fun x => t.key x = k).map t.count).getD 0

/-- One more under a key. -/
def bump (k : κ) (more : α → α) (new : α) (rows : List α) : List α :=
  if rows.any fun x => t.key x = k then rows.map fun x => if t.key x = k then more x else x
  else rows ++ [new]

variable {t}

@[simp] theorem tally_nil (k : κ) : t.tally k [] = 0 := rfl

theorem tally_cons (k : κ) (x : α) (rows : List α) :
    t.tally k (x :: rows) = (if t.key x = k then t.count x else 0) + t.tally k rows := by
  unfold tally
  by_cases h : t.key x = k <;> simp [h]

theorem tally_append (k : κ) (rows more : List α) :
    t.tally k (rows ++ more) = t.tally k rows + t.tally k more := by
  simp [tally]

theorem tally_perm {k : κ} {rows rows' : List α} (h : rows.Perm rows') :
    t.tally k rows = t.tally k rows' :=
  ((h.filter _).map _).sum_eq

theorem tally_eq_zero {k : κ} {rows : List α} (h : k ∉ rows.map t.key) : t.tally k rows = 0 := by
  have hnil : (rows.filter fun x => t.key x = k) = [] := by
    rw [List.filter_eq_nil_iff]
    intro x hx hk
    exact h (List.mem_map.mpr ⟨x, hx, of_decide_eq_true hk⟩)
  rw [tally, hnil]
  rfl

/-- A change of the rows that keeps keys and counts keeps the tallies. -/
theorem tally_map {β : Type*} {t' : Counting β κ} {f : α → β} (hkey : ∀ x, t'.key (f x) = t.key x)
    (hcount : ∀ x, t'.count (f x) = t.count x) (k : κ) (rows : List α) :
    t'.tally k (rows.map f) = t.tally k rows := by
  induction rows with
  | nil => rfl
  | cons x rows ih => rw [List.map_cons, tally_cons, tally_cons, ih, hkey, hcount]

/-- Where every row has a key of its own, its count is the tally of the key. -/
theorem tally_of_mem {rows : List α} (h : (rows.map t.key).Nodup) {x : α} (hx : x ∈ rows) :
    t.tally (t.key x) rows = t.count x := by
  induction rows with
  | nil => cases hx
  | cons y rows ih =>
    rw [List.map_cons, List.nodup_cons] at h
    rw [tally_cons]
    rcases List.mem_cons.mp hx with rfl | hx
    · rw [if_pos rfl, tally_eq_zero h.1, Int.add_zero]
    · have hne : t.key y ≠ t.key x := fun heq => h.1 (heq ▸ List.mem_map_of_mem hx)
      rw [if_neg hne, ih h.2 hx, Int.zero_add]

section Bump

variable {k : κ} {more : α → α} {new : α}

theorem mem_keys_iff_any {rows : List α} :
    (rows.any fun x => t.key x = k) = true ↔ k ∈ rows.map t.key := by
  simp [List.any_eq_true]

/-- A bump keeps the keys and adds its own. -/
theorem keys_bump (hmore : ∀ x, t.key x = k → t.key (more x) = k) (hnew : t.key new = k)
    (rows : List α) :
    (t.bump k more new rows).map t.key =
      if k ∈ rows.map t.key then rows.map t.key else rows.map t.key ++ [k] := by
  unfold bump
  by_cases h : k ∈ rows.map t.key
  · rw [if_pos (mem_keys_iff_any.mpr h), if_pos h, List.map_map]
    refine List.map_congr_left fun x _ => ?_
    by_cases hx : t.key x = k
    · simp [hx, hmore]
    · simp [hx]
  · rw [if_neg (mt mem_keys_iff_any.mp h), if_neg h]
    simp [hnew]

/-- A row after a bump is the changed row of the key, an unchanged row of another
key, or the new row of a key that had none. -/
theorem mem_bump {rows : List α} {x : α} (hx : x ∈ t.bump k more new rows) :
    (∃ y ∈ rows, t.key y = k ∧ x = more y) ∨ (x ∈ rows ∧ t.key x ≠ k) ∨
      (k ∉ rows.map t.key ∧ x = new) := by
  unfold bump at hx
  split at hx
  · obtain ⟨y, hy, rfl⟩ := List.mem_map.mp hx
    by_cases hkey : t.key y = k
    · exact .inl ⟨y, hy, hkey, if_pos hkey⟩
    · rw [if_neg hkey]
      exact .inr (.inl ⟨hy, hkey⟩)
  · rename_i hnone
    have hk : k ∉ rows.map t.key := fun hk => hnone (mem_keys_iff_any.mpr hk)
    rcases List.mem_append.mp hx with hold | hnew
    · exact .inr (.inl ⟨hold, fun hkey => hk (hkey ▸ List.mem_map_of_mem hold)⟩)
    · exact .inr (.inr ⟨hk, List.mem_singleton.mp hnew⟩)

theorem nodup_bump (hmore : ∀ x, t.key x = k → t.key (more x) = k) (hnew : t.key new = k)
    {rows : List α} (h : (rows.map t.key).Nodup) :
    ((t.bump k more new rows).map t.key).Nodup := by
  rw [keys_bump hmore hnew]
  split
  · exact h
  · rename_i hk
    rw [← List.concat_eq_append]
    exact h.concat hk

/-- The row of a key after a bump: the changed or the new row of its own key, and the
old row of another one. -/
theorem find_bump (hmore : ∀ x, t.key x = k → t.key (more x) = k) (hnew : t.key new = k)
    (rows : List α) (k' : κ) :
    (t.bump k more new rows).find? (fun x => t.key x = k') =
      if k = k' then some (((rows.find? fun x => t.key x = k).map more).getD new)
      else rows.find? fun x => t.key x = k' := by
  unfold bump
  by_cases hk : k ∈ rows.map t.key
  · rw [if_pos (mem_keys_iff_any.mpr hk), List.find?_map]
    have hsame : ((fun x => decide (t.key x = k')) ∘ fun x => if t.key x = k then more x else x) =
        fun x => decide (t.key x = k') := by
      funext x
      by_cases hx : t.key x = k
      · simp [hx, hmore]
      · simp [hx]
    rw [hsame]
    by_cases hkk : k = k'
    · subst hkk
      obtain ⟨y, hy, hkey⟩ := List.mem_map.mp hk
      have hsome : (rows.find? fun x => t.key x = k).isSome :=
        List.find?_isSome.mpr ⟨y, hy, decide_eq_true hkey⟩
      obtain ⟨x, hx⟩ := Option.isSome_iff_exists.mp hsome
      have hxk : t.key x = k := by simpa using List.find?_some hx
      rw [if_pos rfl, hx]
      simp [hxk]
    · rw [if_neg hkk]
      cases hx : rows.find? fun x => t.key x = k' with
      | none => rfl
      | some x =>
        have hxk : t.key x = k' := by simpa using List.find?_some hx
        simp [hxk, Ne.symm hkk]
  · have hnone : rows.find? (fun x => t.key x = k) = none :=
      List.find?_eq_none.mpr fun x hx hkey => hk (by simpa using ⟨x, hx, of_decide_eq_true hkey⟩)
    rw [if_neg (mt mem_keys_iff_any.mp hk), List.find?_append, hnone]
    by_cases hkk : k = k'
    · subst hkk
      rw [hnone, if_pos rfl]
      simp [hnew]
    · rw [if_neg hkk]
      simp [hnew, hkk]

/-- A bump adds one to what is read under its key, and changes nothing under another one. -/
theorem countAt_bump (hmore : ∀ x, t.key x = k → t.key (more x) = k) (hnew : t.key new = k)
    (hcount : ∀ x, t.count (more x) = t.count x + 1) (hone : t.count new = 1) (rows : List α)
    (k' : κ) :
    t.countAt k' (t.bump k more new rows) = t.countAt k' rows + if k = k' then 1 else 0 := by
  unfold countAt
  rw [find_bump hmore hnew]
  by_cases hkk : k = k'
  · subst hkk
    rw [if_pos rfl, if_pos rfl]
    cases rows.find? fun x => t.key x = k with
    | none => simp [hone]
    | some x => simp [hcount]
  · rw [if_neg hkk, if_neg hkk, Int.add_zero]

/-- Changing the one row of a key. -/
theorem tally_map_ite (hmore : ∀ x, t.key x = k → t.key (more x) = k)
    (hcount : ∀ x, t.key x = k → t.count (more x) = t.count x + 1) {rows : List α}
    (h : (rows.map t.key).Nodup) (hk : k ∈ rows.map t.key) (k' : κ) :
    t.tally k' (rows.map fun x => if t.key x = k then more x else x) =
      t.tally k' rows + if k = k' then 1 else 0 := by
  induction rows with
  | nil => simp at hk
  | cons x rows ih =>
    rw [List.map_cons, List.nodup_cons] at h
    rw [List.map_cons, tally_cons, tally_cons]
    by_cases hx : t.key x = k
    · -- no other row has this key
      have hrest : (rows.map fun x => if t.key x = k then more x else x) = rows :=
        calc (rows.map fun x => if t.key x = k then more x else x)
            = rows.map id := List.map_congr_left fun y hy => by
              have hne : t.key y ≠ k := fun heq => h.1 (hx ▸ heq ▸ List.mem_map_of_mem hy)
              simp [hne]
          _ = rows := List.map_id rows
      rw [hrest, if_pos hx, hmore x hx, hx, hcount x hx]
      split <;> omega
    · have hk' : k ∈ rows.map t.key := by
        rcases List.mem_cons.mp hk with heq | hk
        · exact absurd heq.symm hx
        · exact hk
      rw [ih h.2 hk', if_neg hx]
      omega

/-- A bump adds one to the tally of its key and to no other. -/
theorem tally_bump (hmore : ∀ x, t.key x = k → t.key (more x) = k) (hnew : t.key new = k)
    (hcount : ∀ x, t.key x = k → t.count (more x) = t.count x + 1) (hone : t.count new = 1)
    {rows : List α} (h : (rows.map t.key).Nodup) (k' : κ) :
    t.tally k' (t.bump k more new rows) = t.tally k' rows + if k = k' then 1 else 0 := by
  unfold bump
  by_cases hk : k ∈ rows.map t.key
  · rw [if_pos (mem_keys_iff_any.mpr hk)]
    exact tally_map_ite hmore hcount h hk k'
  · rw [if_neg (mt mem_keys_iff_any.mp hk), tally_append, tally_cons, hnew, hone]
    simp

end Bump

/-- A fold of steps that keep the keys apart adds what its items weigh. -/
theorem tally_foldl {step : List α → ι → List α} {weigh : κ → ι → Int}
    (hnodup : ∀ rows i, (rows.map t.key).Nodup → ((step rows i).map t.key).Nodup)
    (htally : ∀ rows i k, (rows.map t.key).Nodup →
      t.tally k (step rows i) = t.tally k rows + weigh k i)
    (items : List ι) {rows : List α} (h : (rows.map t.key).Nodup) :
    ((items.foldl step rows).map t.key).Nodup ∧
      ∀ k, t.tally k (items.foldl step rows) = t.tally k rows + (items.map (weigh k)).sum := by
  induction items generalizing rows with
  | nil => exact ⟨h, fun k => by simp⟩
  | cons i items ih =>
    obtain ⟨hnext, hsum⟩ := ih (hnodup rows i h)
    refine ⟨hnext, fun k => ?_⟩
    rw [List.foldl_cons, hsum k, htally rows i k h, List.map_cons, List.sum_cons]
    omega

end Counting

end CartoLive.Lib

/-!
## Sightings

The rows of a table that record two times: the row of a key is made with the time of
its first sighting in both columns, and a later sighting puts its time into the second
column. So after a list of sightings the columns hold the first and the last of them
(`spanOf`), which are the smallest and the largest where the list is bounded by its ends.
-/

namespace CartoLive.Lib

universe u v

namespace Counting

variable {α : Type u} {κ : Type v} [DecidableEq κ] (t : Counting α κ)

/-- The two times of the row of a key. -/
def span (first last : α → Int) (k : κ) (rows : List α) : Option (Int × Int) :=
  (rows.find? fun x => t.key x = k).map fun x => (first x, last x)

variable {t} {first last : α → Int} {k : κ} {more : α → α} {new : α} {time : Int}

/-- An upsert that keeps the first time and sets the last one. -/
theorem span_bump (hmore : ∀ x, t.key x = k → t.key (more x) = k) (hnew : t.key new = k)
    (hkeeps : ∀ x, first (more x) = first x) (hsets : ∀ x, last (more x) = time)
    (hfirst : first new = time) (hlast : last new = time) (rows : List α) (k' : κ) :
    t.span first last k' (t.bump k more new rows) =
      if k = k' then some (((t.span first last k rows).map Prod.fst).getD time, time)
      else t.span first last k' rows := by
  unfold span
  rw [find_bump hmore hnew]
  by_cases hk : k = k'
  · rw [if_pos hk, if_pos hk]
    cases rows.find? fun x => t.key x = k with
    | none =>
      show some (first new, last new) = some (time, time)
      rw [hfirst, hlast]
    | some x =>
      show some (first (more x), last (more x)) = some (first x, time)
      rw [hkeeps, hsets]
  · rw [if_neg hk, if_neg hk]

end Counting

/-! ## The ends of a list -/

/-- The first and the last of the times. -/
def spanOf (times : List Int) : Option (Int × Int) :=
  times.head?.map fun first => (first, times.getLast?.getD first)

theorem spanOf_append (times : List Int) (time : Int) :
    spanOf (times ++ [time]) = some (((spanOf times).map Prod.fst).getD time, time) := by
  cases times with
  | nil => rfl
  | cons first rest =>
    unfold spanOf
    rw [List.getLast?_append]
    rfl

/-- The ends are among the times. -/
theorem mem_of_spanOf {times : List Int} {first last : Int} (h : spanOf times = some (first, last)) :
    first ∈ times ∧ last ∈ times := by
  obtain ⟨start, hstart, heq⟩ := Option.map_eq_some_iff.mp h
  obtain ⟨rfl, hlast⟩ := Prod.mk.inj heq
  have hmem := List.mem_of_mem_head? hstart
  cases hend : times.getLast? with
  | none =>
    rw [List.getLast?_eq_none_iff.mp hend] at hmem
    cases hmem
  | some finish =>
    rw [hend, Option.getD_some] at hlast
    exact ⟨hmem, hlast ▸ List.mem_of_getLast? hend⟩

/-- A first part has the same first time, and its last time among the times. -/
theorem spanOf_of_append {times : List Int} (more : List Int) {first last : Int}
    (h : spanOf times = some (first, last)) :
    ∃ finish, spanOf (times ++ more) = some (first, finish) ∧ last ∈ times ++ more := by
  refine ⟨(times ++ more).getLast?.getD first, ?_,
    List.mem_append_left _ (mem_of_spanOf h).2⟩
  obtain ⟨start, hstart, heq⟩ := Option.map_eq_some_iff.mp h
  obtain ⟨rfl, -⟩ := Prod.mk.inj heq
  unfold spanOf
  rw [List.head?_append, hstart]
  rfl

end CartoLive.Lib
