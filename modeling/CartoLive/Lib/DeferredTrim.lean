import Mathlib.Data.List.Nodup
import Mathlib.Data.List.Perm.Subperm

/-!
# Rows that are trimmed later

Rows with keys of their own, to which writers add, and of which a writer that sees too many dooms
the oldest: the doomed keys are deleted one by one, at any time. What counts for the bound are the
rows that are not doomed.
-/

namespace CartoLive.Lib.DeferredTrim

universe u v

variable {α : Type u} {κ : Type v} [DecidableEq κ] (key : α → κ)

/-- A row takes the place of the one with its key, at the end. -/
def put (x : α) (rows : List α) : List α := rows.filter (fun y => key y ≠ key x) ++ [x]

def delete (k : κ) (rows : List α) : List α := rows.filter fun y => key y ≠ k

/-- The rows that are not doomed. -/
def kept (doomed : List κ) (rows : List α) : List α := rows.filter fun y => key y ∉ doomed

variable {key} {doomed : List κ} {rows : List α}

theorem mem_put {x y : α} : y ∈ put key x rows ↔ y = x ∨ y ∈ rows ∧ key y ≠ key x := by
  unfold put
  rw [List.mem_append, List.mem_filter, List.mem_singleton, decide_eq_true_eq, or_comm]

theorem nodup_put (h : (rows.map key).Nodup) (x : α) : ((put key x rows).map key).Nodup := by
  unfold put
  rw [List.map_append, List.map_singleton, List.nodup_append]
  refine ⟨h.sublist (List.filter_sublist.map key), List.nodup_singleton _, ?_⟩
  rintro k hk same hsame rfl
  obtain ⟨y, hy, hkey⟩ := List.mem_map.mp hk
  have hne := of_decide_eq_true (List.mem_filter.mp hy).2
  exact hne (hkey.trans (List.mem_singleton.mp hsame))

theorem nodup_delete (h : (rows.map key).Nodup) (k : κ) : ((delete key k rows).map key).Nodup :=
  h.sublist (List.filter_sublist.map key)

/-- A new row is one more. -/
theorem length_kept_put_le (x : α) :
    (kept key doomed (put key x rows)).length ≤ (kept key doomed rows).length + 1 := by
  unfold kept put
  rw [List.filter_append, List.length_append]
  refine Nat.add_le_add ?_ (List.length_filter_le _ _)
  exact (List.filter_sublist.filter _).length_le

/-- Doomed are the first rows over a limit: at most the limit is kept. -/
theorem length_kept_trim_le (limit : ℕ) :
    (kept key (doomed ++ (rows.take (rows.length - limit)).map key) rows).length ≤ limit := by
  have hdropped : (kept key (doomed ++ (rows.take (rows.length - limit)).map key)
      (rows.take (rows.length - limit))) = [] := by
    refine List.filter_eq_nil_iff.mpr fun x hx hkept => ?_
    exact of_decide_eq_true hkept (List.mem_append_right _ (List.mem_map_of_mem hx))
  have hsplit : ∀ all n, kept key all rows =
      kept key all (rows.take n) ++ kept key all (rows.drop n) := by
    intro all n
    unfold kept
    rw [← List.filter_append, List.take_append_drop]
  rw [hsplit _ (rows.length - limit), hdropped, List.nil_append]
  have hlength := List.length_filter_le
    (fun y => decide (key y ∉ doomed ++ (rows.take (rows.length - limit)).map key))
    (rows.drop (rows.length - limit))
  rw [List.length_drop] at hlength
  unfold kept
  omega

/-- A doomed row is deleted. -/
theorem length_kept_delete_le {k : κ} {doomed' : List κ}
    (hdoomed : ∀ j ∈ doomed, j = k ∨ j ∈ doomed') :
    (kept key doomed' (delete key k rows)).length ≤ (kept key doomed rows).length := by
  unfold kept delete
  rw [List.filter_filter]
  refine (List.monotone_filter_right rows fun x hx => ?_).length_le
  obtain ⟨hkept, hne⟩ := Bool.and_eq_true_iff.mp hx
  refine decide_eq_true fun hmem => ?_
  rcases hdoomed _ hmem with hk | hmem'
  · exact of_decide_eq_true hne hk
  · exact of_decide_eq_true hkept hmem'

/-- All rows are the kept and the doomed ones. -/
theorem length_le_kept_add (h : (rows.map key).Nodup) (doomed : List κ) :
    rows.length ≤ (kept key doomed rows).length + doomed.length := by
  have hsplit := List.length_eq_length_filter_add (l := rows) fun y => decide (key y ∉ doomed)
  have hgone : ((rows.filter fun y => !decide (key y ∉ doomed)).map key).Subperm doomed := by
    refine List.subperm_of_subset (h.sublist (List.filter_sublist.map key)) fun k hk => ?_
    obtain ⟨y, hy, rfl⟩ := List.mem_map.mp hk
    simpa using (List.mem_filter.mp hy).2
  have hlength := hgone.length_le
  rw [List.length_map] at hlength
  unfold kept
  omega

/-- A deletion is given up. -/
theorem length_kept_erase_le (h : (rows.map key).Nodup) {k : κ} {doomed' : List κ}
    (hdoomed : ∀ j ∈ doomed, j = k ∨ j ∈ doomed') :
    (kept key doomed' rows).length ≤ (kept key doomed rows).length + 1 := by
  have hdeleted : (kept key doomed' (delete key k rows)).length ≤ (kept key doomed rows).length :=
    length_kept_delete_le hdoomed
  have hnodup : ((kept key doomed' rows).map key).Nodup :=
    h.sublist (List.filter_sublist.map key)
  have hone := length_le_kept_add hnodup [k]
  have hsame : kept key [k] (kept key doomed' rows) = kept key doomed' (delete key k rows) := by
    unfold kept delete
    rw [List.filter_filter, List.filter_filter]
    refine List.filter_congr fun x _ => ?_
    rw [Bool.and_comm]
    simp
  rw [hsame, List.length_singleton] at hone
  omega

end CartoLive.Lib.DeferredTrim
