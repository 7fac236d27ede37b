import Mathlib.Algebra.Order.Field.Basic
import Mathlib.Algebra.Order.Floor.Ring
import Mathlib.Data.Int.Range
import Mathlib.Logic.Function.Basic
import Mathlib.Order.WithBot

/-!
# Items filed by the cells of a grid

The plane is cut into square cells, and every item is filed, by its number, under each cell
that its bounds reach. A query takes the items of the cells that its own bounds reach, so that
it gets every item whose bounds have a point in common with them (`mem_query`).

Of the items that a query gets, the nearest of those within their tolerance is what a scan of
all items finds, as long as the query misses none of these (`scanned_nearest`).
-/

namespace CartoLive.Lib

universe u v w

/-! ## Cells -/

structure Bounds (K : Type u) where
  minX : K
  minY : K
  maxX : K
  maxY : K

section Cells

variable {K : Type u} [Field K] [LinearOrder K] [IsStrictOrderedRing K] [FloorRing K]

def Bounds.Has (bounds : Bounds K) (x y : K) : Prop :=
  (bounds.minX ≤ x ∧ x ≤ bounds.maxX) ∧ bounds.minY ≤ y ∧ y ≤ bounds.maxY

/-- The integers from `lo` to `hi`, both included. -/
def intsBetween (lo hi : ℤ) : List ℤ := Int.range lo (hi + 1)

theorem mem_intsBetween {lo hi c : ℤ} : c ∈ intsBetween lo hi ↔ lo ≤ c ∧ c ≤ hi := by
  rw [intsBetween, Int.mem_range_iff]
  omega

/-- The cells that bounds reach, row by row. -/
def cells (cellSize : K) (bounds : Bounds K) : List (ℤ × ℤ) :=
  (intsBetween ⌊bounds.minY / cellSize⌋ ⌊bounds.maxY / cellSize⌋).flatMap fun cellY =>
    (intsBetween ⌊bounds.minX / cellSize⌋ ⌊bounds.maxX / cellSize⌋).map fun cellX =>
      (cellX, cellY)

/-- Every point of the bounds is in one of their cells. -/
theorem mem_cells {cellSize : K} (hsize : 0 < cellSize) {bounds : Bounds K} {x y : K}
    (h : bounds.Has x y) : (⌊x / cellSize⌋, ⌊y / cellSize⌋) ∈ cells cellSize bounds := by
  have hfloor : ∀ {u v : K}, u ≤ v → ⌊u / cellSize⌋ ≤ ⌊v / cellSize⌋ := fun huv =>
    Int.floor_le_floor (div_le_div_of_nonneg_right huv (le_of_lt hsize))
  rw [cells, List.mem_flatMap]
  refine ⟨_, mem_intsBetween.mpr ⟨hfloor h.2.1, hfloor h.2.2⟩, ?_⟩
  rw [List.mem_map]
  exact ⟨_, mem_intsBetween.mpr ⟨hfloor h.1.1, hfloor h.1.2⟩, rfl⟩

variable {κ : Type v} [DecidableEq κ] (key : ℤ × ℤ → κ)

/-- An item is put at the end of a cell's bucket. -/
def addToCell (index : ℕ) (buckets : κ → List ℕ) (cell : ℤ × ℤ) : κ → List ℕ :=
  Function.update buckets (key cell) (buckets (key cell) ++ [index])

/-- An item is put in the bucket of every cell that its bounds reach. -/
def addToCells (cellSize : K) (buckets : κ → List ℕ) (bounds : Bounds K) (index : ℕ) :
    κ → List ℕ :=
  (cells cellSize bounds).foldl (addToCell key index) buckets

/-- The buckets of a list of items. -/
def fileByCells {α : Type w} (cellSize : K) (bounds : α → Bounds K) (items : List α) :
    κ → List ℕ :=
  items.zipIdx.foldl
    (fun buckets entry => addToCells key cellSize buckets (bounds entry.1) entry.2) fun _ => []

/-- The items in the cells of the bounds, each once. -/
def queryCells (cellSize : K) (buckets : κ → List ℕ) (bounds : Bounds K) : List ℕ :=
  ((cells cellSize bounds).flatMap fun cell => buckets (key cell)).eraseDups

variable {key}

/-- What one step of a loop establishes, and no step undoes, holds after the loop. -/
theorem foldl_establishes {β : Type u} {σ : Type v} {step : σ → β → σ} {P : σ → Prop}
    (hkeep : ∀ s b, P s → P (step s b)) {b : β} (hstep : ∀ s, P (step s b)) {l : List β}
    (hb : b ∈ l) (s : σ) : P (l.foldl step s) := by
  have hrest : ∀ (rest : List β) (s : σ), P s → P (rest.foldl step s) := by
    intro rest
    induction rest with
    | nil => exact fun _ h => h
    | cons next rest ih => exact fun s h => ih _ (hkeep s next h)
  induction l generalizing s with
  | nil => exact absurd hb List.not_mem_nil
  | cons next rest ih =>
    rcases List.mem_cons.mp hb with rfl | hmem
    · exact hrest rest _ (hstep s)
    · exact ih hmem _

theorem mem_addToCell_of_mem (index : ℕ) {buckets : κ → List ℕ} {k : κ} {i : ℕ}
    (h : i ∈ buckets k) (cell : ℤ × ℤ) : i ∈ addToCell key index buckets cell k := by
  unfold addToCell
  by_cases hk : k = key cell
  · rw [hk, Function.update_self]
    exact List.mem_append_left _ (hk ▸ h)
  · rwa [Function.update_of_ne hk]

omit [IsStrictOrderedRing K] in
theorem mem_addToCells_of_mem {cellSize : K} {buckets : κ → List ℕ} {k : κ} {i : ℕ}
    (h : i ∈ buckets k) (bounds : Bounds K) (index : ℕ) :
    i ∈ addToCells key cellSize buckets bounds index k := by
  unfold addToCells
  induction cells cellSize bounds generalizing buckets with
  | nil => exact h
  | cons cell rest ih => exact ih (mem_addToCell_of_mem index h cell)

omit [IsStrictOrderedRing K] in
theorem mem_addToCells {cellSize : K} (buckets : κ → List ℕ) {bounds : Bounds K} (index : ℕ)
    {cell : ℤ × ℤ} (h : cell ∈ cells cellSize bounds) :
    index ∈ addToCells key cellSize buckets bounds index (key cell) := by
  have hadd : ∀ buckets : κ → List ℕ, index ∈ addToCell key index buckets cell (key cell) := by
    intro buckets
    rw [addToCell, Function.update_self]
    exact List.mem_append_right _ (List.mem_singleton_self index)
  have hkeep : ∀ (buckets : κ → List ℕ) (c : ℤ × ℤ), index ∈ buckets (key cell) →
      index ∈ addToCell key index buckets c (key cell) :=
    fun _ c hmem => mem_addToCell_of_mem index hmem c
  exact foldl_establishes hkeep hadd h buckets

omit [IsStrictOrderedRing K] in
theorem mem_fileByCells {α : Type w} {cellSize : K} {bounds : α → Bounds K} {items : List α}
    {index : ℕ} {item : α} (hitem : items[index]? = some item) {cell : ℤ × ℤ}
    (h : cell ∈ cells cellSize (bounds item)) :
    index ∈ fileByCells key cellSize bounds items (key cell) := by
  have hkeep : ∀ (buckets : κ → List ℕ) (entry : α × ℕ), index ∈ buckets (key cell) →
      index ∈ addToCells key cellSize buckets (bounds entry.1) entry.2 (key cell) :=
    fun _ entry hmem => mem_addToCells_of_mem hmem (bounds entry.1) entry.2
  have hadd : ∀ buckets : κ → List ℕ,
      index ∈ addToCells key cellSize buckets (bounds (item, index).1) (item, index).2
        (key cell) :=
    fun buckets => mem_addToCells buckets index h
  exact foldl_establishes hkeep hadd (List.mem_zipIdx_iff_getElem?.mpr hitem) _

/-- A query misses no item whose bounds have a point in common with its own. -/
theorem mem_query {α : Type w} {cellSize : K} (hsize : 0 < cellSize) {boundsOf : α → Bounds K}
    {items : List α} {index : ℕ} {item : α} (hitem : items[index]? = some item)
    {bounds : Bounds K} {x y : K} (h : bounds.Has x y) (h' : (boundsOf item).Has x y) :
    index ∈ queryCells key cellSize (fileByCells key cellSize boundsOf items) bounds := by
  rw [queryCells, List.mem_eraseDups, List.mem_flatMap]
  exact ⟨_, mem_cells hsize h, mem_fileByCells hitem (mem_cells hsize h')⟩

end Cells

/-! ## The nearest of the candidates -/

section Nearest

variable {K : Type u} [LinearOrder K] {α : Type v}

/-- An item replaces the best one when it is within its tolerance and nearer. -/
def keepNearer (best : Option α × WithTop K) (item : α) (distance : WithTop K) (tolerance : K) :
    Option α × WithTop K :=
  if distance ≤ tolerance ∧ distance < best.2 then (some item, distance) else best

/-- The nearest of the candidates that are within their tolerance. -/
def nearest (items : List α) (distance : α → WithTop K) (tolerance : α → K)
    (candidates : List ℕ) : Option α × WithTop K :=
  candidates.foldl
    (fun best index =>
      match items[index]? with
      | none => best
      | some item => keepNearer best item (distance item) (tolerance item))
    (none, ⊤)

/-- What a scan of all items says: an item is found if any is within its tolerance, it is the
nearest of those, and they are all among the candidates. -/
structure Scanned (items : List α) (distance : α → WithTop K) (tolerance : α → K)
    (candidates : List ℕ) (found : Option α) : Prop where
  found_iff : (∃ item, found = some item) ↔ ∃ item ∈ items, distance item ≤ tolerance item
  within : ∀ item, found = some item → item ∈ items ∧ distance item ≤ tolerance item
  least : ∀ item, found = some item →
    ∀ other ∈ items, distance other ≤ tolerance other → distance item ≤ distance other
  candidate : ∀ index item, items[index]? = some item → distance item ≤ tolerance item →
    index ∈ candidates

variable {items : List α} {distance : α → WithTop K} {tolerance : α → K}

/-- What the loop keeps: the best item is within its tolerance, with its distance, and no
candidate so far that is within its own is nearer. -/
structure NearestOf (items : List α) (distance : α → WithTop K) (tolerance : α → K)
    (seen : List ℕ) (best : Option α × WithTop K) : Prop where
  distance_eq : best.2 = match best.1 with
    | none => ⊤
    | some item => distance item
  within : ∀ item, best.1 = some item → item ∈ items ∧ distance item ≤ tolerance item
  least : ∀ index ∈ seen, ∀ item, items[index]? = some item → distance item ≤ tolerance item →
    best.2 ≤ distance item

theorem NearestOf.step {seen : List ℕ} {best : Option α × WithTop K}
    (h : NearestOf items distance tolerance seen best) (index : ℕ) :
    NearestOf items distance tolerance (seen ++ [index])
      (match items[index]? with
        | none => best
        | some item => keepNearer best item (distance item) (tolerance item)) := by
  cases hitem : items[index]? with
  | none =>
    refine ⟨h.distance_eq, h.within, ?_⟩
    intro i hi item hi' hwithin
    rcases List.mem_append.mp hi with hi | hi
    · exact h.least i hi item hi' hwithin
    · rw [List.mem_singleton.mp hi, hitem] at hi'
      cases hi'
  | some found =>
    dsimp only
    unfold keepNearer
    split
    · next hnew =>
      refine ⟨rfl, ?_, ?_⟩
      · intro item heq
        cases heq
        exact ⟨List.mem_of_getElem? hitem, hnew.1⟩
      · intro i hi item hi' hwithin
        rcases List.mem_append.mp hi with hi | hi
        · exact (le_of_lt hnew.2).trans (h.least i hi item hi' hwithin)
        · rw [List.mem_singleton.mp hi, hitem] at hi'
          cases hi'
          exact le_rfl
    · next hold =>
      refine ⟨h.distance_eq, h.within, ?_⟩
      intro i hi item hi' hwithin
      rcases List.mem_append.mp hi with hi | hi
      · exact h.least i hi item hi' hwithin
      · rw [List.mem_singleton.mp hi, hitem] at hi'
        cases hi'
        exact not_lt.mp fun hlt => hold ⟨hwithin, hlt⟩

theorem nearestOf_nearest (candidates : List ℕ) :
    NearestOf items distance tolerance candidates
      (nearest items distance tolerance candidates) := by
  have hrun : ∀ (rest seen : List ℕ) (best : Option α × WithTop K),
      NearestOf items distance tolerance seen best →
      NearestOf items distance tolerance (seen ++ rest)
        (rest.foldl (fun best index =>
          match items[index]? with
          | none => best
          | some item => keepNearer best item (distance item) (tolerance item)) best) := by
    intro rest
    induction rest with
    | nil =>
      intro seen best h
      rwa [List.append_nil]
    | cons index rest ih =>
      intro seen best h
      have := ih (seen ++ [index]) _ (h.step index)
      rwa [List.append_assoc] at this
  have hstart : NearestOf items distance tolerance [] (none, ⊤) :=
    ⟨rfl, fun _ h => absurd h.symm (Option.some_ne_none _), fun _ h => absurd h List.not_mem_nil⟩
  exact hrun candidates [] _ hstart

/-- Candidates that miss no item within its tolerance give what a scan of all items gives. -/
theorem scanned_nearest {candidates : List ℕ}
    (hall : ∀ index item, items[index]? = some item → distance item ≤ tolerance item →
      index ∈ candidates) :
    Scanned items distance tolerance candidates
      (nearest items distance tolerance candidates).1 := by
  have hnearest : NearestOf items distance tolerance candidates
      (nearest items distance tolerance candidates) := nearestOf_nearest candidates
  have hleast : ∀ item ∈ items, distance item ≤ tolerance item →
      (nearest items distance tolerance candidates).2 ≤ distance item := by
    intro item hitem hwithin
    obtain ⟨index, hindex⟩ := List.mem_iff_getElem?.mp hitem
    exact hnearest.least index (hall index item hindex hwithin) item hindex hwithin
  refine ⟨?_, hnearest.within, ?_, hall⟩
  · constructor
    · rintro ⟨item, hitem⟩
      exact ⟨item, hnearest.within item hitem⟩
    · rintro ⟨item, hitem, hwithin⟩
      cases hbest : (nearest items distance tolerance candidates).1 with
      | some best => exact ⟨best, rfl⟩
      | none =>
        have hdistance := hnearest.distance_eq
        rw [hbest] at hdistance
        have htop := (hleast item hitem hwithin).trans hwithin
        rw [hdistance, top_le_iff] at htop
        exact absurd htop (WithTop.coe_ne_top)
  · intro item hitem other hother hwithin
    have hdistance : (nearest items distance tolerance candidates).2 = distance item := by
      rw [hnearest.distance_eq, hitem]
    exact hdistance ▸ hleast other hother hwithin

end Nearest

end CartoLive.Lib
