import Mathlib.Data.List.Basic
import Mathlib.Logic.Function.Basic

/-!
# Tables with columns

A table has columns, and rows that give each of them a value. What a row says of
a column that its table lacks means nothing, so two rows are compared on the
columns of their table. A column is added with a default (`addColumn`), which
every row then has; a reader that takes the default for a missing column does not
see the difference (`filled_addColumn`).
-/

namespace CartoLive.Lib

universe u v

/-- A table: its columns, and its rows as functions of a column. -/
structure Table (κ : Type u) (ν : Type v) where
  columns : List κ
  rows : List (κ → ν)

namespace Table

variable {κ : Type u} {ν : Type v} [DecidableEq κ]

/-- `ALTER TABLE .. ADD COLUMN`, where the column is missing. -/
def addColumn (t : Table κ ν) (column : κ) (default : ν) : Table κ ν :=
  if column ∈ t.columns then t
  else
    { columns := t.columns ++ [column]
      rows := t.rows.map fun row => Function.update row column default }

/-- The rows with a default for every missing column. -/
def filled (default : κ → ν) (t : Table κ ν) : List (κ → ν) :=
  t.rows.map fun row column => if column ∈ t.columns then row column else default column

/-- A later table has the columns and the rows of an earlier one: each row in its
place with its values, and perhaps other columns, and other rows after it. -/
structure Extends (t t' : Table κ ν) : Prop where
  columns : ∀ column ∈ t.columns, column ∈ t'.columns
  rows : ∀ (i : Nat) (row : κ → ν), t.rows[i]? = some row →
    ∃ row' : κ → ν, t'.rows[i]? = some row' ∧ ∀ column ∈ t.columns, row' column = row column

variable {t t' t'' : Table κ ν} {default : κ → ν}

omit [DecidableEq κ] in
theorem Extends.refl (t : Table κ ν) : t.Extends t :=
  ⟨fun _ h => h, fun _ row hrow => ⟨row, hrow, fun _ _ => rfl⟩⟩

omit [DecidableEq κ] in
theorem Extends.trans (h : t.Extends t') (h' : t'.Extends t'') : t.Extends t'' where
  columns column hcolumn := h'.columns column (h.columns column hcolumn)
  rows i row hrow := by
    obtain ⟨row', hrow', hsame⟩ := h.rows i row hrow
    obtain ⟨row'', hrow'', hsame'⟩ := h'.rows i row' hrow'
    refine ⟨row'', hrow'', fun column hcolumn => ?_⟩
    rw [hsame' column (h.columns column hcolumn), hsame column hcolumn]

omit [DecidableEq κ] in
/-- More rows after those there are. -/
theorem extends_append (t : Table κ ν) (more : List (κ → ν)) :
    t.Extends { t with rows := t.rows ++ more } where
  columns _ h := h
  rows i row hrow := by
    refine ⟨row, ?_, fun _ _ => rfl⟩
    rw [List.getElem?_append_left (List.getElem?_eq_some_iff.mp hrow).1, hrow]

theorem addColumn_of_mem {column : κ} {value : ν} (h : column ∈ t.columns) :
    t.addColumn column value = t := if_pos h

theorem mem_addColumn (t : Table κ ν) (column : κ) (value : ν) :
    column ∈ (t.addColumn column value).columns := by
  unfold addColumn
  split
  · assumption
  · exact List.mem_append_right _ (List.mem_singleton_self _)

theorem extends_addColumn (t : Table κ ν) (column : κ) (value : ν) :
    t.Extends (t.addColumn column value) := by
  unfold addColumn
  split
  · exact .refl t
  · rename_i hmissing
    refine ⟨fun c hc => List.mem_append_left _ hc, fun i row hrow => ?_⟩
    refine ⟨Function.update row column value, by rw [List.getElem?_map, hrow]; rfl, ?_⟩
    intro c hc
    have hne : c ≠ column := fun heq => hmissing (heq ▸ hc)
    exact Function.update_of_ne hne _ _

/-- A reader that takes defaults for missing columns does not see the default
become a value. -/
theorem filled_addColumn (t : Table κ ν) (column : κ) :
    (t.addColumn column (default column)).filled default = t.filled default := by
  unfold addColumn
  split
  · rfl
  · rename_i hmissing
    unfold filled
    dsimp only
    rw [List.map_map]
    refine List.map_congr_left fun row _ => funext fun c => ?_
    rw [Function.comp_apply]
    by_cases hc : c = column
    · subst hc
      simp [hmissing]
    · simp [hc]

/-! ## Several columns -/

/-- Several columns, one after the other. -/
def addColumns (t : Table κ ν) (added : List (κ × ν)) : Table κ ν :=
  added.foldl (fun t c => t.addColumn c.1 c.2) t

theorem extends_addColumns (t : Table κ ν) (added : List (κ × ν)) :
    t.Extends (t.addColumns added) := by
  induction added generalizing t with
  | nil => exact .refl t
  | cons c added ih => exact (extends_addColumn t c.1 c.2).trans (ih (t.addColumn c.1 c.2))

theorem mem_addColumns (t : Table κ ν) {added : List (κ × ν)} {c : κ × ν} (h : c ∈ added) :
    c.1 ∈ (t.addColumns added).columns := by
  induction added generalizing t with
  | nil => cases h
  | cons first added ih =>
    rcases List.mem_cons.mp h with rfl | h
    · exact (extends_addColumns _ added).columns _ (mem_addColumn t c.1 c.2)
    · exact ih (t.addColumn first.1 first.2) h

theorem addColumns_of_mem {added : List (κ × ν)} (h : ∀ c ∈ added, c.1 ∈ t.columns) :
    t.addColumns added = t := by
  induction added with
  | nil => rfl
  | cons c added ih =>
    rw [addColumns, List.foldl_cons, addColumn_of_mem (h c List.mem_cons_self)]
    exact ih fun c' hc' => h c' (List.mem_cons_of_mem _ hc')

theorem filled_addColumns (t : Table κ ν) {added : List (κ × ν)}
    (h : ∀ c ∈ added, c.2 = default c.1) :
    (t.addColumns added).filled default = t.filled default := by
  induction added generalizing t with
  | nil => rfl
  | cons c added ih =>
    have hrest := ih (t.addColumn c.1 c.2) fun c' hc' => h c' (List.mem_cons_of_mem _ hc')
    rw [addColumns, List.foldl_cons]
    refine hrest.trans ?_
    rw [h c List.mem_cons_self, filled_addColumn]

end Table

end CartoLive.Lib
