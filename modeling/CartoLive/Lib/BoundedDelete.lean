import Mathlib.Data.List.Perm.Subperm
import Mathlib.Data.List.Nodup

/-!
# Deletes with a limit

`DELETE ... WHERE rowid IN (SELECT rowid ... LIMIT n)`: of the rows that match,
some `n` are deleted, or all of them where there are no more. Which ones is not
said, so that a limit is any function with that property.

A delete of fewer than `n` rows leaves no row that matches
(`not_candidate_of_short`), and a full one makes the table shorter: with that a
loop of such deletes comes to an end.
-/

namespace CartoLive.Lib

/-- What `LIMIT n` returns of the rows that match. -/
structure Limit (n : Nat) where
  pick : {α : Type} → List α → List α
  sublist : ∀ {α : Type} (l : List α), (pick l).Sublist l
  length : ∀ {α : Type} (l : List α), (pick l).length = min n l.length

/-- The limit that takes the first rows. -/
def Limit.first (n : Nat) : Limit n where
  pick l := l.take n
  sublist l := l.take_sublist n
  length l := l.length_take

section BoundedDelete

variable {α : Type} {n : Nat} (rowid : α → Int) (candidate : α → Bool) (limit : Limit n)

/-- The row identifiers that the subquery returns. -/
def pickedIDs (rows : List α) : List Int := (limit.pick (rows.filter candidate)).map rowid

/-- The rows that a delete leaves. -/
def keptRows (rows : List α) : List α :=
  rows.filter fun row => rowid row ∉ pickedIDs rowid candidate limit rows

/-- The rows that it removes. -/
def deletedRows (rows : List α) : List α :=
  rows.filter fun row => rowid row ∈ pickedIDs rowid candidate limit rows

variable {rowid candidate limit} {rows : List α} {row : α}

theorem keptRows_sublist : (keptRows rowid candidate limit rows).Sublist rows :=
  List.filter_sublist

theorem mem_keptRows : row ∈ keptRows rowid candidate limit rows ↔
    row ∈ rows ∧ rowid row ∉ pickedIDs rowid candidate limit rows := by
  simp [keptRows]

theorem mem_deletedRows : row ∈ deletedRows rowid candidate limit rows ↔
    row ∈ rows ∧ rowid row ∈ pickedIDs rowid candidate limit rows := by
  simp [deletedRows]

variable (rowid candidate limit rows) in
/-- Every row is kept or deleted. -/
theorem length_kept_add_deleted :
    (keptRows rowid candidate limit rows).length + (deletedRows rowid candidate limit rows).length =
      rows.length := by
  have := List.length_eq_length_filter_add (l := rows)
    fun row => decide (rowid row ∉ pickedIDs rowid candidate limit rows)
  simpa [keptRows, deletedRows] using this.symm

/-- A row whose identifier is picked is a picked row. -/
theorem mem_pick_of_mem_pickedIDs (hnodup : (rows.map rowid).Nodup) (hrow : row ∈ rows)
    (hpicked : rowid row ∈ pickedIDs rowid candidate limit rows) :
    row ∈ limit.pick (rows.filter candidate) := by
  obtain ⟨other, hother, heq⟩ := List.mem_map.mp hpicked
  have hmem : other ∈ rows := List.mem_of_mem_filter ((limit.sublist _).subset hother)
  have : other = row := List.inj_on_of_nodup_map hnodup hmem hrow heq
  exact this ▸ hother

/-- Only rows that match are deleted. -/
theorem candidate_of_mem_deletedRows (hnodup : (rows.map rowid).Nodup)
    (h : row ∈ deletedRows rowid candidate limit rows) : candidate row = true := by
  obtain ⟨hrow, hpicked⟩ := mem_deletedRows.mp h
  exact (List.mem_filter.mp
    ((limit.sublist _).subset (mem_pick_of_mem_pickedIDs hnodup hrow hpicked))).2

theorem mem_keptRows_of_not_candidate (hnodup : (rows.map rowid).Nodup) (hrow : row ∈ rows)
    (hnot : candidate row = false) : row ∈ keptRows rowid candidate limit rows := by
  refine mem_keptRows.mpr ⟨hrow, fun hpicked => ?_⟩
  have := candidate_of_mem_deletedRows hnodup (mem_deletedRows.mpr ⟨hrow, hpicked⟩)
  rw [hnot] at this
  cases this

/-- As many rows are deleted as the subquery returns. -/
theorem length_deletedRows (hnodup : (rows.map rowid).Nodup) :
    (deletedRows rowid candidate limit rows).length = min n (rows.filter candidate).length := by
  have hrows : rows.Nodup := List.Nodup.of_map rowid hnodup
  have hpick : (limit.pick (rows.filter candidate)).Nodup :=
    ((limit.sublist _).trans List.filter_sublist).nodup hrows
  have hperm : (deletedRows rowid candidate limit rows).Perm
      (limit.pick (rows.filter candidate)) := by
    refine (List.perm_ext_iff_of_nodup (List.filter_sublist.nodup hrows) hpick).mpr fun row => ?_
    constructor
    · intro h
      obtain ⟨hrow, hpicked⟩ := mem_deletedRows.mp h
      exact mem_pick_of_mem_pickedIDs hnodup hrow hpicked
    · intro h
      exact mem_deletedRows.mpr
        ⟨List.mem_of_mem_filter ((limit.sublist _).subset h), List.mem_map_of_mem h⟩
  rw [hperm.length_eq, limit.length]

/-- A short delete leaves no row that matches. -/
theorem not_candidate_of_short (hnodup : (rows.map rowid).Nodup)
    (hshort : (deletedRows rowid candidate limit rows).length < n)
    (h : row ∈ keptRows rowid candidate limit rows) : candidate row = false := by
  obtain ⟨hrow, hnotPicked⟩ := mem_keptRows.mp h
  rw [length_deletedRows hnodup] at hshort
  have hall : limit.pick (rows.filter candidate) = rows.filter candidate :=
    (limit.sublist _).eq_of_length (by rw [limit.length]; omega)
  by_contra hcandidate
  refine hnotPicked (List.mem_map_of_mem ?_)
  rw [hall]
  exact List.mem_filter.mpr ⟨hrow, by simpa using hcandidate⟩

end BoundedDelete

end CartoLive.Lib
