import CartoLive.Api.PublicHistory
import Mathlib.Algebra.BigOperators.Ring.Finset

/-!
# The buckets of a history summary

The buckets of a summary tile its window, and their counts add up to the edges
of the window, unless the width of the buckets and the rounded window do not fit
each other: the window may have grown past the buckets that there may be, its
last instant may fall behind the last bucket, and a huge width leaves the 64 bits.
-/

/-!
## The window of a history request

`publicBoundedWindow` clamps the window of a query one bound after another. Each
clamp holds on its own, but the width of the window is a difference of two
64-bit integers, one of which the query chooses: from a start that is far enough
before 1970 it wraps, and the clamp on the width passes.
-/

namespace CartoLive.Theorems.HistoryWindow

open CartoLive.Go CartoLive.Api

/-- A window in the past that is at most as wide as it may be. -/
structure Bounded (now : Int) (window : Int × Int) : Prop where
  start : 0 ≤ window.1
  ordered : window.1 ≤ window.2
  past : window.2 ≤ now
  width : wrapInt64 (window.2 - window.1) ≤ publicHistoryMaxWindowMs

/-- The end that a query asks for, if that is in the past, or else the present. -/
def requestedEnd (toQuery : Option Int64) (now : Int64) : Int :=
  match toQuery with
  | some toMs => if 0 < toMs.toInt ∧ toMs.toInt ≤ now.toInt then toMs.toInt else now.toInt
  | none => now.toInt

/-- A query asks for a start that is `2^63` milliseconds before an end that is later than the
widest window. -/
def FarStart (fromQuery toQuery : Option Int64) (now : Int64) : Prop :=
  publicHistoryMaxWindowMs < requestedEnd toQuery now ∧
    ∃ fromMs ∈ fromQuery, 2 ^ 63 ≤ requestedEnd toQuery now - fromMs.toInt

theorem requestedEnd_range (toQuery : Option Int64) {now : Int64} (hnow : 0 < now.toInt) :
    0 < requestedEnd toQuery now ∧ requestedEnd toQuery now ≤ now.toInt := by
  unfold requestedEnd
  split
  · split <;> omega
  · omega

/-- The end of the window. -/
theorem toMs_eq (toQuery : Option Int64) (now : Int64) :
    (if (toQuery.map Int64.toInt).getD now.toInt ≤ 0 ∨
        now.toInt < (toQuery.map Int64.toInt).getD now.toInt then now.toInt
      else (toQuery.map Int64.toInt).getD now.toInt) = requestedEnd toQuery now := by
  unfold requestedEnd
  cases toQuery with
  | none => simp
  | some toMs =>
    simp only [Option.map_some, Option.getD_some]
    split <;> split <;> omega

/-- The start of a window, clamped to its end and then to its width. -/
def clampedStart (toMs fromMs : Int) : Int :=
  let start := if toMs < fromMs then toMs else fromMs
  if publicHistoryMaxWindowMs < wrapInt64 (toMs - start) then
    wrapInt64 (toMs - publicHistoryMaxWindowMs)
  else start

/-- A clamped start is in the window, or the width has wrapped and passed. -/
theorem clampedStart_cases {toMs fromMs : Int} (hto : 0 < toMs) (hend : FitsInt64 toMs)
    (hfrom : FitsInt64 fromMs) :
    (toMs - fromMs < 2 ^ 63 ∧ clampedStart toMs fromMs ≤ toMs ∧
        toMs - clampedStart toMs fromMs ≤ publicHistoryMaxWindowMs) ∨
      2 ^ 63 ≤ toMs - fromMs ∧ clampedStart toMs fromMs = fromMs ∧ fromMs ≤ 0 := by
  obtain ⟨-, hmax⟩ := hend
  obtain ⟨hmin, hless⟩ := hfrom
  have hwidth : publicHistoryMaxWindowMs = 604800000 := rfl
  have hback : wrapInt64 (toMs - publicHistoryMaxWindowMs) = toMs - publicHistoryMaxWindowMs :=
    wrapInt64_of_fits ⟨by omega, by omega⟩
  unfold clampedStart
  dsimp only
  rw [hback]
  by_cases hlate : toMs < fromMs
  · have hzero : wrapInt64 (toMs - toMs) = 0 := by rw [Int.sub_self]; rfl
    rw [if_pos hlate, hzero, if_neg (by omega)]
    exact .inl ⟨by omega, by omega, by omega⟩
  rw [if_neg hlate]
  by_cases hfar : 2 ^ 63 ≤ toMs - fromMs
  · -- the width wraps to a negative one
    have hwrap : wrapInt64 (toMs - fromMs) = toMs - fromMs - 18446744073709551616 := by
      unfold wrapInt64
      omega
    rw [hwrap, if_neg (by omega)]
    exact .inr ⟨hfar, rfl, by omega⟩
  · have hexact : wrapInt64 (toMs - fromMs) = toMs - fromMs :=
      wrapInt64_of_fits ⟨by omega, by omega⟩
    rw [hexact]
    split
    · exact .inl ⟨by omega, by omega, by omega⟩
    · exact .inl ⟨by omega, by omega, by omega⟩

theorem bounded_clamped_iff {toMs fromMs now : Int} (hto : 0 < toMs) (hnow : toMs ≤ now)
    (hend : FitsInt64 toMs) (hfrom : FitsInt64 fromMs) :
    Bounded now (if clampedStart toMs fromMs < 0 then 0 else clampedStart toMs fromMs, toMs) ↔
      ¬(publicHistoryMaxWindowMs < toMs ∧ 2 ^ 63 ≤ toMs - fromMs) := by
  have hmax := hend.2
  have hwidth : publicHistoryMaxWindowMs = 604800000 := rfl
  -- a start that is not negative leaves a width that fits
  have hwindow : ∀ start, 0 ≤ start → start ≤ toMs →
      (Bounded now (start, toMs) ↔ toMs - start ≤ publicHistoryMaxWindowMs) := by
    intro start hstart hle
    have hfits : wrapInt64 (toMs - start) = toMs - start :=
      wrapInt64_of_fits ⟨by omega, by omega⟩
    constructor
    · exact fun h => hfits ▸ h.width
    · exact fun h => ⟨hstart, hle, hnow, hfits.symm ▸ h⟩
  rcases clampedStart_cases hto hend hfrom with ⟨hnear, hle, hshort⟩ | ⟨hfar, hstart, hneg⟩
  · split
    · rw [hwindow 0 le_rfl hto.le]
      omega
    · rw [hwindow _ (by omega) hle]
      omega
  · rw [hstart]
    have hzero : (if fromMs < 0 then 0 else fromMs) = 0 := by split <;> omega
    rw [hzero, hwindow 0 le_rfl hto.le]
    omega

/-- The window of a query: it begins with the clamped start, or with 0. -/
theorem publicHistoryWindow_eq (fromQuery toQuery : Option Int64) {now : Int64}
    (hnow : 0 < now.toInt) :
    ∃ start, publicHistoryWindow (fromQuery.map Int64.toInt) (toQuery.map Int64.toInt) now.toInt =
        (start, requestedEnd toQuery now) ∧ 0 ≤ start ∧ start ≤ requestedEnd toQuery now := by
  obtain ⟨hpos, hle⟩ := requestedEnd_range toQuery hnow
  have hmax := (fits_toInt now).2
  have hend : FitsInt64 (requestedEnd toQuery now) := ⟨by omega, by omega⟩
  have hclamped : ∀ fromMs, FitsInt64 fromMs →
      clampedStart (requestedEnd toQuery now) fromMs ≤ requestedEnd toQuery now := by
    intro fromMs hfrom
    rcases clampedStart_cases hpos hend hfrom with ⟨-, hstart, -⟩ | ⟨-, heq, hneg⟩
    · exact hstart
    · omega
  unfold publicHistoryWindow publicBoundedWindow
  dsimp only
  rw [toMs_eq]
  have hfits : FitsInt64 ((fromQuery.map Int64.toInt).getD
      (wrapInt64 (requestedEnd toQuery now - publicHistoryDefaultWindowMs))) := by
    cases fromQuery with
    | none => exact fits_wrapInt64 _
    | some fromMs => exact fits_toInt fromMs
  have hstart := hclamped _ hfits
  refine ⟨_, rfl, ?_, ?_⟩
  · split <;> omega
  · change (if clampedStart _ _ < 0 then 0 else clampedStart _ _) ≤ _
    split
    · exact hpos.le
    · exact hstart

/-- A window is bounded unless its query asks for a start that is too far back. -/
theorem window_bounded_iff (fromQuery toQuery : Option Int64) (now : Int64) (hnow : 0 < now.toInt) :
    (Bounded now.toInt (publicHistoryWindow (fromQuery.map Int64.toInt) (toQuery.map Int64.toInt)
        now.toInt) ↔ ¬FarStart fromQuery toQuery now) ∧
      (Bounded now.toInt (publicSevenDayWindow (fromQuery.map Int64.toInt)
        (toQuery.map Int64.toInt) now.toInt) ↔ ¬FarStart fromQuery toQuery now) := by
  obtain ⟨hpos, hle⟩ := requestedEnd_range toQuery hnow
  have hfits := fits_toInt now
  have hend : FitsInt64 (requestedEnd toQuery now) := ⟨by omega, by have := hfits.2; omega⟩
  have hwindow : ∀ defaultWindowMs, 0 ≤ defaultWindowMs → defaultWindowMs ≤ publicHistoryMaxWindowMs →
      (Bounded now.toInt (publicBoundedWindow (fromQuery.map Int64.toInt)
        (toQuery.map Int64.toInt) now.toInt defaultWindowMs) ↔ ¬FarStart fromQuery toQuery now) := by
    intro defaultWindowMs hnonneg hshort
    unfold publicBoundedWindow FarStart
    dsimp only
    rw [toMs_eq]
    cases fromQuery with
    | some fromMs =>
      rw [Option.map_some, Option.getD_some]
      refine (bounded_clamped_iff hpos hle hend (fits_toInt fromMs)).trans (not_congr ?_)
      simp only [Option.mem_some_iff, exists_eq_left']
    | none =>
      have hmax : publicHistoryMaxWindowMs = 604800000 := rfl
      have hdefault : wrapInt64 (requestedEnd toQuery now - defaultWindowMs) =
          requestedEnd toQuery now - defaultWindowMs :=
        wrapInt64_of_fits ⟨by omega, by have := hend.2; omega⟩
      rw [Option.map_none, Option.getD_none, hdefault]
      refine (bounded_clamped_iff hpos hle hend ⟨by omega, by have := hend.2; omega⟩).trans
        (not_congr ?_)
      exact iff_of_false (by omega) (by rintro ⟨-, fromMs, hnone, -⟩; cases hnone)
  exact ⟨hwindow publicHistoryDefaultWindowMs (by decide) (by decide),
    hwindow publicHistoryMaxWindowMs (by decide) (by decide)⟩

/-- A start at the least value that an `int64` has. -/
theorem far_start_not_bounded : ¬∀ (fromQuery toQuery : Option Int64) (now : Int64),
    0 < now.toInt → Bounded now.toInt (publicHistoryWindow (fromQuery.map Int64.toInt)
      (toQuery.map Int64.toInt) now.toInt) := by
  intro h
  have hwidth := (h (some Int64.minValue) none 1700000000000 (by decide)).width
  exact absurd hwidth (by decide)

/-- A query for the last two hours. -/
theorem recent_window_bounded :
    0 < (1700000000000 : Int64).toInt ∧
      Bounded (1700000000000 : Int64).toInt (publicHistoryWindow
        ((some (1699992800000 : Int64)).map Int64.toInt) ((none : Option Int64).map Int64.toInt)
        (1700000000000 : Int64).toInt) := by
  refine ⟨by decide, (window_bounded_iff (some 1699992800000) none 1700000000000
    (by decide)).1.mpr ?_⟩
  rintro ⟨-, fromMs, hfrom, hfar⟩
  cases hfrom
  exact absurd hfar (by decide)

end CartoLive.Theorems.HistoryWindow

namespace CartoLive.Theorems.HistoryBuckets

open CartoLive.Lib CartoLive.Go CartoLive.Live CartoLive.Store CartoLive.Api
open CartoLive.Theorems.HistoryWindow

/-! ## Counting rows -/

/-- A row that is added to a bucket, of as many as there are. -/
def accepted (f : PublicIATAFilter) (size : Nat) (iata : String) (bucket : Int) : Bool :=
  f.allows iata && decide (0 ≤ bucket) && decide (bucket < size)

theorem sum_modify {buckets : List SummaryBucket} {i : Nat} (count : Int) (h : i < buckets.length) :
    ((buckets.modify i fun bucket => { bucket with count := bucket.count + count }).map
        SummaryBucket.count).sum = (buckets.map SummaryBucket.count).sum + count := by
  induction buckets generalizing i with
  | nil => cases h
  | cons bucket buckets ih =>
    cases i with
    | zero =>
      simp only [List.modify_zero_cons, List.map_cons, List.sum_cons]
      omega
    | succ i =>
      have hrest := ih (Nat.lt_of_succ_lt_succ h)
      simp only [List.modify_succ_cons, List.map_cons, List.sum_cons, hrest]
      omega

/-- What is not a count stays as it is. -/
theorem map_modify {β : Type*} (g : SummaryBucket → β) (k : SummaryBucket → SummaryBucket)
    (hg : ∀ bucket, g (k bucket) = g bucket) (buckets : List SummaryBucket) (i : Nat) :
    (buckets.modify i k).map g = buckets.map g := by
  induction buckets generalizing i with
  | nil => simp
  | cons bucket buckets ih =>
    cases i with
    | zero => rw [List.modify_zero_cons, List.map_cons, List.map_cons, hg]
    | succ i => rw [List.modify_succ_cons, List.map_cons, List.map_cons, ih]

/-- The bounds of the buckets. -/
def spans (buckets : List SummaryBucket) : List (Int × Int) :=
  buckets.map fun bucket => (bucket.first, bucket.last)

theorem spans_foldl_addRow (f : PublicIATAFilter) (rows : List HistorySummaryRow)
    (buckets : List SummaryBucket) : spans (rows.foldl (addRow f) buckets) = spans buckets := by
  induction rows generalizing buckets with
  | nil => rfl
  | cons row rows ih =>
    rw [List.foldl_cons, ih]
    unfold addRow
    split
    · rfl
    · exact map_modify (fun bucket => (bucket.first, bucket.last))
        (fun bucket => { bucket with count := bucket.count + row.count }) (fun _ => rfl) _ _

theorem length_of_spans {buckets buckets' : List SummaryBucket} (h : spans buckets = spans buckets') :
    buckets.length = buckets'.length := by
  have := congrArg List.length h
  rwa [spans, spans, List.length_map, List.length_map] at this

/-- The counts after the loop over the rows. -/
theorem sum_foldl_addRow (f : PublicIATAFilter) (rows : List HistorySummaryRow)
    (buckets : List SummaryBucket) :
    ((rows.foldl (addRow f) buckets).map SummaryBucket.count).sum =
      (buckets.map SummaryBucket.count).sum +
        ((rows.filter fun row => accepted f buckets.length row.iata row.bucket).map
          HistorySummaryRow.count).sum := by
  induction rows generalizing buckets with
  | nil => simp
  | cons row rows ih =>
    have hlength : (addRow f buckets row).length = buckets.length :=
      length_of_spans (spans_foldl_addRow f [row] buckets)
    rw [List.foldl_cons, ih, hlength]
    by_cases haccepted : accepted f buckets.length row.iata row.bucket = true
    · rw [List.filter_cons, if_pos haccepted, List.map_cons, List.sum_cons]
      simp only [accepted, Bool.and_eq_true, decide_eq_true_eq] at haccepted
      obtain ⟨⟨hallowed, hnonneg⟩, hlt⟩ := haccepted
      rw [addRow, if_neg (by rw [hallowed]; simp; omega), sum_modify _ (by omega)]
      omega
    · rw [List.filter_cons, if_neg haccepted, addRow, if_pos]
      simp only [accepted, Bool.and_eq_true, decide_eq_true_eq] at haccepted
      by_cases hallowed : f.allows row.iata = true
      · refine .inr ?_
        by_contra hin
        exact haccepted ⟨⟨hallowed, by omega⟩, by omega⟩
      · exact .inl (by simpa using hallowed)

/-- The rows of a query count the edges behind them. -/
theorem sum_groupRows (f : PublicIATAFilter) (size : Nat) (keys : List (String × Int)) :
    (((groupRows keys).filter fun row => accepted f size row.iata row.bucket).map
        HistorySummaryRow.count).sum =
      (keys.countP fun key => accepted f size key.1 key.2 : Nat) := by
  have hperm := (List.perm_insertionSort summaryKeyLe keys.dedup).filter
    fun key => accepted f size key.1 key.2
  have hsum := List.sum_map_count_dedup_filter_eq_countP
    (fun key => accepted f size key.1 key.2) keys
  unfold groupRows
  rw [List.filter_map, List.map_map, ← hsum, Nat.cast_list_sum, List.map_map]
  simp only [Function.comp_def]
  exact (hperm.map fun key => ((keys.countP fun other => other = key : Nat) : Int)).sum_eq

/-- The edges behind the rows that are added. -/
def Counted (f : PublicIATAFilter) (db : Database) (storeNow fromMs toMs bucketMs : Int) (size : Nat)
    (edge : EdgeEvent) : Bool :=
  accepted f size (db.joined edge).iata ((edge.heardAt - fromMs).tdiv bucketMs) &&
    decide (fromMs ≤ edge.heardAt ∧ edge.heardAt ≤ boundedHistoryTo storeNow toMs)

theorem sum_summaryRows (f : PublicIATAFilter) (db : Database) (storeNow fromMs toMs : Int)
    {bucketMs : Int} (hpos : 0 < bucketMs) (size : Nat) :
    ∃ rows, summaryRows f db storeNow fromMs toMs bucketMs false = some rows ∧
      ((rows.filter fun row => accepted f size row.iata row.bucket).map
          HistorySummaryRow.count).sum =
        (db.edges.countP (Counted f db storeNow fromMs toMs bucketMs size) : Nat) := by
  unfold summaryRows
  rw [if_neg Bool.false_ne_true]
  split
  · refine ⟨_, rfl, ?_⟩
    unfold storePublicHistorySummary
    dsimp only
    rw [if_neg (by omega), sum_groupRows, List.countP_map, summaryEdges, List.countP_filter]
    refine congrArg Int.ofNat (List.countP_congr fun edge _ => ?_)
    simp only [Counted, accepted, Function.comp_apply]
  · rename_i hopen
    have hall : ∀ iata, f.allows iata = true :=
      PublicIATAFilter.allows_of_disabled (by simpa using hopen)
    refine ⟨_, rfl, ?_⟩
    unfold storePublicHistorySummaryTotals
    dsimp only
    rw [if_neg (by omega), sum_groupRows, List.countP_map, summaryEdges, List.countP_filter]
    refine congrArg Int.ofNat (List.countP_congr fun edge _ => ?_)
    simp only [Counted, accepted, Function.comp_apply, hall]

/-! ## Tiling -/

/-- The number of buckets of a width that a window takes. -/
def bucketTotal (span bucketMs : Int) : Int :=
  if span ≤ 0 then 1 else (span + bucketMs - 1) / bucketMs

section Tiling

variable {span bucketMs fromMs toMs : Int}

/-- The last bucket begins in the window, and ends with it or behind. -/
theorem bucketTotal_spec (hpos : 0 < bucketMs) (hspan : 0 ≤ span) :
    1 ≤ bucketTotal span bucketMs ∧ (bucketTotal span bucketMs - 1) * bucketMs ≤ span ∧
      span ≤ bucketTotal span bucketMs * bucketMs ∧
      (0 < span → (bucketTotal span bucketMs - 1) * bucketMs < span) := by
  unfold bucketTotal
  split
  · omega
  · have hle := Int.ediv_mul_le (span + bucketMs - 1) hpos.ne'
    have hlt := Int.lt_ediv_add_one_mul_self (span + bucketMs - 1) hpos
    have hone : 1 ≤ (span + bucketMs - 1) / bucketMs := by
      rw [Int.le_ediv_iff_mul_le hpos]
      omega
    rw [Int.add_mul] at hlt
    rw [Int.sub_mul]
    omega

theorem bucketTotal_le_iff (hpos : 0 < bucketMs) :
    bucketTotal span bucketMs ≤ 288 ↔ span ≤ 288 * bucketMs := by
  unfold bucketTotal
  split
  · omega
  · have hiff := Int.ediv_lt_iff_lt_mul (a := span + bucketMs - 1) (b := 289) hpos
    omega

/-- The bounds of the buckets of a window. -/
def tileSpans (fromMs toMs bucketMs : Int) (size : Nat) : List (Int × Int) :=
  (List.range size).map fun (i : Nat) =>
    (fromMs + i * bucketMs,
      if toMs < fromMs + i * bucketMs + bucketMs then toMs else fromMs + i * bucketMs + bucketMs)

/-- Adjacent spans from the start of a window to its end. -/
structure Tile (fromMs toMs : Int) (spans : List (Int × Int)) : Prop where
  nonempty : spans ≠ []
  first : ∀ s ∈ spans.head?, s.1 = fromMs
  last : ∀ s ∈ spans.getLast?, s.2 = toMs
  contiguous : spans.IsChain fun s t => s.2 = t.1
  ordered : ∀ s ∈ spans, s.1 ≤ s.2

theorem tile_tileSpans (hpos : 0 < bucketMs) (hle : fromMs ≤ toMs) {size : Nat}
    (hsize : (size : Int) = bucketTotal (toMs - fromMs) bucketMs) :
    Tile fromMs toMs (tileSpans fromMs toMs bucketMs size) := by
  obtain ⟨hone, hbefore, hbehind, -⟩ := bucketTotal_spec hpos (Int.sub_nonneg.mpr hle)
  rw [← hsize] at hone hbefore hbehind
  -- a bucket begins in the window
  have hstart : ∀ i : Nat, i + 1 ≤ size → (i : Int) * bucketMs ≤ (size - 1) * bucketMs := fun i hi =>
    Int.mul_le_mul_of_nonneg_right (by omega) hpos.le
  have hnext : ∀ i : Nat, ((i + 1 : Nat) : Int) * bucketMs = i * bucketMs + bucketMs := fun i => by
    rw [Int.natCast_succ, Int.add_mul, Int.one_mul]
  refine ⟨?_, ?_, ?_, ?_, ?_⟩
  · intro hnil
    have := congrArg List.length hnil
    rw [tileSpans, List.length_map, List.length_range, List.length_nil] at this
    omega
  · intro s hs
    obtain ⟨n, rfl⟩ := Nat.exists_eq_add_of_lt (show 0 < size by omega)
    rw [tileSpans, List.head?_map, Nat.zero_add, List.range_succ_eq_map, List.head?_cons] at hs
    cases hs
    simp
  · intro s hs
    rw [tileSpans, List.getLast?_map, List.getLast?_range, if_neg (by omega)] at hs
    cases hs
    have hlast : ((size - 1 : Nat) : Int) * bucketMs = (size - 1) * bucketMs := by
      rw [Int.natCast_sub (by omega)]
      rfl
    rw [Int.sub_mul, Int.one_mul] at hlast
    dsimp only
    rw [hlast]
    split <;> omega
  · rw [List.isChain_iff_getElem]
    intro i hi
    rw [tileSpans, List.length_map, List.length_range] at hi
    simp only [tileSpans, List.getElem_map, List.getElem_range]
    have hin := hstart (i + 1) hi
    rw [hnext] at hin ⊢
    rw [if_neg (by omega)]
    omega
  · intro s hs
    obtain ⟨i, hi, rfl⟩ := List.mem_map.mp hs
    have hin := hstart i (List.mem_range.mp hi)
    dsimp only
    split <;> omega

/-- A window is filled by its buckets exactly if their width divides it. -/
theorem eq_bucketTotal_mul_iff (hpos : 0 < bucketMs) (hspan : 0 < span) :
    span = bucketTotal span bucketMs * bucketMs ↔ bucketMs ∣ span := by
  obtain ⟨-, -, hbehind, hbefore⟩ := bucketTotal_spec hpos hspan.le
  constructor
  · exact fun h => ⟨_, h.trans (Int.mul_comm _ _)⟩
  · rintro ⟨k, rfl⟩
    rw [Int.mul_comm] at hbehind hbefore ⊢
    have hle := Int.le_of_mul_le_mul_right hbehind hpos
    have hlt := Int.lt_of_mul_lt_mul_right (hbefore (by rwa [Int.mul_comm] at hspan)) hpos.le
    congr 1
    omega

/-- The number of buckets, where the sum behind it is exact. -/
theorem bucketsForSpan_eq (hpos : 0 < bucketMs)
    (hexact : 0 < span → span + bucketMs < 2 ^ 63) :
    bucketsForSpan span bucketMs = bucketTotal span bucketMs := by
  unfold bucketsForSpan bucketTotal
  by_cases hzero : span ≤ 0
  · rw [if_pos (.inl hzero), if_pos hzero]
  · have hsum := hexact (by omega)
    rw [if_neg (by omega), if_neg hzero, ceilDiv, if_neg hzero,
      wrapInt64_of_fits ⟨by omega, by omega⟩, Int.tdiv_eq_ediv_of_nonneg (by omega)]

end Tiling

/-! ## Requests -/

/-- What a request asks for, and the time of it. -/
structure SummaryQuery where
  fromQuery : Option Int64
  toQuery : Option Int64
  bucketQuery : Option Int64
  now : Int64
  now_pos : 0 < now.toInt

namespace SummaryQuery

variable (q : SummaryQuery)

/-- The window that is asked for. -/
def window : Int × Int :=
  publicHistoryWindow (q.fromQuery.map Int64.toInt) (q.toQuery.map Int64.toInt) q.now.toInt

def span : Int := q.window.2 - q.window.1

/-- The window that is reported. -/
def rounded : Int × Int := canonicalHistorySummaryWindow q.window.1 q.window.2

def roundedSpan : Int := q.rounded.2 - q.rounded.1

/-- The width that is asked for, and the one that the buckets get. -/
def requested : Int := requestedBucketMs q.span (q.bucketQuery.map Int64.toInt)

def width : Int := summaryBucketMs q.span (q.bucketQuery.map Int64.toInt)

/-- The response to the request, which is not in the cache and whose query succeeds. -/
def respond (f : PublicIATAFilter) (db : Database) (storeNow : Int) : Option SummaryResponse :=
  publicHistorySummary f db (fun _ _ _ => none) false q.now.toInt storeNow
    (q.fromQuery.map Int64.toInt) (q.toQuery.map Int64.toInt) (q.bucketQuery.map Int64.toInt)

/-- The sums and products of a request stay within 64 bits. -/
structure WithinInt64 : Prop where
  default : (q.bucketQuery.map Int64.toInt).getD 0 ≤ 0 → 0 < q.span → FitsInt64 (q.span + 96)
  asked : 0 < q.span → FitsInt64 (q.span + q.requested)
  widest : 0 < q.span → publicHistoryMaxBuckets < bucketsForSpan q.span q.requested →
    FitsInt64 (q.span + publicHistoryMaxBuckets)
  count : 0 < q.roundedSpan → FitsInt64 (q.roundedSpan + q.width)
  buckets : ∀ i : Nat, i < bucketsForSpan q.roundedSpan q.width →
    FitsInt64 (i * q.width) ∧ FitsInt64 (q.rounded.1 + i * q.width) ∧
      FitsInt64 (q.rounded.1 + i * q.width + q.width)

/-- The widths are far enough below `2^63`. -/
structure Narrow : Prop where
  asked : 0 < q.span → q.span + q.requested < 2 ^ 63
  count : 0 < q.roundedSpan → q.roundedSpan + q.width < 2 ^ 63
  buckets : q.rounded.1 + bucketTotal q.roundedSpan q.width * q.width < 2 ^ 63

theorem window_range : 0 ≤ q.window.1 ∧ q.window.1 ≤ q.window.2 ∧ q.window.2 < 2 ^ 63 := by
  obtain ⟨start, hwindow, hstart, hle⟩ := publicHistoryWindow_eq q.fromQuery q.toQuery q.now_pos
  have hend := (requestedEnd_range q.toQuery q.now_pos).2
  have hmax := (fits_toInt q.now).2
  rw [window, hwindow]
  dsimp only
  omega

theorem rounded_range : 0 ≤ q.rounded.1 ∧ q.rounded.1 ≤ q.rounded.2 ∧ q.rounded.2 < 2 ^ 63 := by
  obtain ⟨hstart, hle, hmax⟩ := q.window_range
  unfold rounded canonicalHistorySummaryWindow publicHistorySummaryRoundMs
  dsimp only
  rw [Int.tdiv_eq_ediv_of_nonneg hstart, Int.tdiv_eq_ediv_of_nonneg (by omega)]
  split <;> omega

theorem requested_ge : 1000 ≤ q.requested := by
  unfold requested requestedBucketMs
  dsimp only
  split <;> omega

theorem width_pos (h : 0 < q.span → q.span + q.requested < 2 ^ 63) : 0 < q.width := by
  have hrange := q.window_range
  have hrequested := q.requested_ge
  unfold width summaryBucketMs
  dsimp only
  change 0 < if publicHistoryMaxBuckets < bucketsForSpan q.span q.requested then
    ceilDiv q.span publicHistoryMaxBuckets else q.requested
  have hspan : 0 ≤ q.span := by unfold span; omega
  split
  · rename_i hmany
    rw [bucketsForSpan_eq (by omega) h] at hmany
    have hpos : 0 < q.span := by
      by_contra hzero
      rw [bucketTotal, if_pos (by omega)] at hmany
      exact absurd hmany (by decide)
    have hsum := h hpos
    rw [ceilDiv, if_neg (by omega), publicHistoryMaxBuckets,
      wrapInt64_of_fits ⟨by omega, by omega⟩, Int.tdiv_eq_ediv_of_nonneg (by omega)]
    omega
  · omega

theorem bucketsForSpan_width (h : 0 < q.span → q.span + q.requested < 2 ^ 63)
    (hcount : 0 < q.roundedSpan → q.roundedSpan + q.width < 2 ^ 63) :
    bucketsForSpan q.roundedSpan q.width = bucketTotal q.roundedSpan q.width :=
  bucketsForSpan_eq (q.width_pos h) hcount

/-- Everything stays within 64 bits exactly if the widths are far enough below the limit. -/
theorem withinInt64_iff : q.WithinInt64 ↔ q.Narrow := by
  have hrange := q.window_range
  have hrounded := q.rounded_range
  have hrequested := q.requested_ge
  have hspan : 0 ≤ q.span := by unfold span; omega
  have hroundedSpan : 0 ≤ q.roundedSpan := by unfold roundedSpan; omega
  constructor
  · intro h
    have hasked : 0 < q.span → q.span + q.requested < 2 ^ 63 := fun hpos => (h.asked hpos).2
    have hcount : 0 < q.roundedSpan → q.roundedSpan + q.width < 2 ^ 63 :=
      fun hpos => (h.count hpos).2
    refine ⟨hasked, hcount, ?_⟩
    have hone := (bucketTotal_spec (q.width_pos hasked) hroundedSpan).1
    have hlast := (h.buckets (bucketTotal q.roundedSpan q.width - 1).toNat (by
      rw [q.bucketsForSpan_width hasked hcount]
      omega)).2.2.2
    rw [Int.toNat_of_nonneg (by omega), Int.sub_mul] at hlast
    omega
  · intro h
    have hpos := q.width_pos h.asked
    have htotal := h.buckets
    exact
      { default := fun _ hwide => by
          have := h.asked hwide
          exact ⟨by omega, by omega⟩
        asked := fun hwide => by
          have := h.asked hwide
          exact ⟨by omega, by omega⟩
        widest := fun hwide _ => by
          have := h.asked hwide
          unfold publicHistoryMaxBuckets
          exact ⟨by omega, by omega⟩
        count := fun hwide => by
          have := h.count hwide
          exact ⟨by omega, by omega⟩
        buckets := fun i hi => by
          rw [q.bucketsForSpan_width h.asked h.count] at hi
          have hnonneg : 0 ≤ (i : Int) * q.width := Int.mul_nonneg (by omega) hpos.le
          have hnext : ((i : Int) + 1) * q.width ≤ bucketTotal q.roundedSpan q.width * q.width :=
            Int.mul_le_mul_of_nonneg_right (by omega) hpos.le
          rw [Int.add_mul, Int.one_mul] at hnext
          unfold FitsInt64
          omega }

/-- The buckets before they are counted. -/
theorem emptyBuckets_eq (h : q.Narrow) :
    ∃ buckets, ∃ size : Nat, emptyBuckets q.rounded.1 q.rounded.2 q.width = some buckets ∧
      (size : Int) = bucketTotal q.roundedSpan q.width ∧ buckets.length = size ∧
      spans buckets = tileSpans q.rounded.1 q.rounded.2 q.width size ∧
      (buckets.map SummaryBucket.count).sum = 0 := by
  have hrounded := q.rounded_range
  have hpos := q.width_pos h.asked
  have hwithin := q.withinInt64_iff.mpr h
  have hspan : wrapInt64 (q.rounded.2 - q.rounded.1) = q.roundedSpan :=
    wrapInt64_of_fits ⟨by omega, by omega⟩
  have hone := (bucketTotal_spec hpos (show 0 ≤ q.roundedSpan by unfold roundedSpan; omega)).1
  have htotal := q.bucketsForSpan_width h.asked h.count
  unfold emptyBuckets
  dsimp only
  rw [hspan, htotal, if_neg (by omega)]
  refine ⟨_, (bucketTotal q.roundedSpan q.width).toNat, rfl, Int.toNat_of_nonneg (by omega), ?_, ?_, ?_⟩
  · rw [List.length_map, List.length_range]
  · unfold spans tileSpans
    rw [List.map_map]
    refine List.map_congr_left fun i hi => ?_
    have hlt := List.mem_range.mp hi
    obtain ⟨hproduct, hstart, hend⟩ := hwithin.buckets i (by rw [htotal]; omega)
    dsimp only [Function.comp_apply]
    rw [wrapInt64_of_fits hproduct, wrapInt64_of_fits hstart, wrapInt64_of_fits hend]
  · rw [List.map_map]
    generalize List.range _ = l
    induction l with
    | nil => rfl
    | cons i l ih =>
      rw [List.map_cons, List.sum_cons, ih]
      rfl

theorem respond_steps (f : PublicIATAFilter) (db : Database) (storeNow : Int) :
    q.respond f db storeNow =
      (emptyBuckets q.rounded.1 q.rounded.2 q.width).map fun buckets =>
        match summaryRows f db storeNow q.rounded.1 q.rounded.2 q.width false with
        | none => { serverTime := q.now.toInt, fromMs := q.rounded.1, toMs := q.rounded.2
                    bucketMs := q.width, buckets }
        | some rows => { serverTime := q.now.toInt, fromMs := q.rounded.1, toMs := q.rounded.2
                         bucketMs := q.width, buckets := rows.foldl (addRow f) buckets } := by
  have hrange := q.window_range
  have hwidth : summaryBucketMs (wrapInt64 (q.window.2 - q.window.1))
      (q.bucketQuery.map Int64.toInt) = q.width := by
    rw [wrapInt64_of_fits ⟨by omega, by omega⟩]
    rfl
  rw [← hwidth]
  rfl

/-- The response: the bounds of its buckets tile the window, and the counts are those of the rows
that are added. -/
theorem respond_eq (f : PublicIATAFilter) (db : Database) (storeNow : Int) (h : q.Narrow) :
    ∃ response, ∃ size : Nat, q.respond f db storeNow = some response ∧
      (size : Int) = bucketTotal q.roundedSpan q.width ∧
      response.fromMs = q.rounded.1 ∧ response.toMs = q.rounded.2 ∧
      response.buckets.length = size ∧
      spans response.buckets = tileSpans q.rounded.1 q.rounded.2 q.width size ∧
      (response.buckets.map SummaryBucket.count).sum =
        (db.edges.countP (Counted f db storeNow q.rounded.1 q.rounded.2 q.width size) : Nat) := by
  obtain ⟨buckets, size, hempty, hsize, hlength, hspans, hzero⟩ := q.emptyBuckets_eq h
  obtain ⟨rows, hrows, hsum⟩ := sum_summaryRows f db storeNow q.rounded.1 q.rounded.2
    (q.width_pos h.asked) size
  have hrespond : q.respond f db storeNow = some
      { serverTime := q.now.toInt, fromMs := q.rounded.1, toMs := q.rounded.2, bucketMs := q.width
        buckets := rows.foldl (addRow f) buckets } := by
    rw [respond_steps, hempty, hrows]
    rfl
  refine ⟨_, size, hrespond, hsize, rfl, rfl, ?_, ?_, ?_⟩
  · exact (length_of_spans (spans_foldl_addRow f rows buckets)).trans hlength
  · exact (spans_foldl_addRow f rows buckets).trans hspans
  · refine (sum_foldl_addRow f rows buckets).trans ?_
    rw [hzero, hlength, hsum, Int.zero_add]

end SummaryQuery

/-! ## Tiling without a loss -/

/-- An edge that is allowed and in the window. -/
def InWindow (f : PublicIATAFilter) (db : Database) (fromMs toMs : Int) (edge : EdgeEvent) : Bool :=
  f.allows (db.joined edge).iata && decide (fromMs ≤ edge.heardAt ∧ edge.heardAt ≤ toMs)

/-- The buckets of a response tile its window, and no edge of the window is missing in them. -/
structure TilesWindow (f : PublicIATAFilter) (db : Database) (response : SummaryResponse) : Prop where
  length_le : response.buckets.length ≤ 288
  tile : Tile response.fromMs response.toMs (spans response.buckets)
  counts : (response.buckets.map SummaryBucket.count).sum =
    (db.edges.countP (InWindow f db response.fromMs response.toMs) : Nat)

/-- The width of the buckets and the rounded window fit each other. -/
structure Fitting (f : PublicIATAFilter) (db : Database) (storeNow : Int) (q : SummaryQuery) :
    Prop where
  /-- The widths stay below the limit of 64 bits. -/
  narrow : q.Narrow
  /-- Rounding has not made the window wider than the buckets that there may be. -/
  few : q.roundedSpan ≤ 288 * q.width
  /-- Where the buckets fill the window, no edge is heard at its end. -/
  last : 0 < q.roundedSpan → q.width ∣ q.roundedSpan →
    ∀ edge ∈ db.edges, f.allows (db.joined edge).iata = true → edge.heardAt ≠ q.rounded.2
  /-- Where the end is rounded to 0, which the query takes for no end, no edge is in its reach. -/
  epoch : q.rounded.2 = 0 → ∀ edge ∈ db.edges, f.allows (db.joined edge).iata = true →
    0 < edge.heardAt → edge.heardAt < q.width →
      storeNow + Database.maxFutureEdgeSkew < edge.heardAt
  /-- No edge of the window is too far ahead of the store's clock. -/
  clock : ∀ edge ∈ db.edges, f.allows (db.joined edge).iata = true →
    q.rounded.1 ≤ edge.heardAt → edge.heardAt ≤ q.rounded.2 →
      edge.heardAt ≤ storeNow + Database.maxFutureEdgeSkew

/-- Two counts agree exactly if no element is in one of them only. -/
theorem countP_eq_iff_of_imp {α : Type*} {p r : α → Bool} {l : List α}
    (h : ∀ x ∈ l, p x = true → r x = true) :
    l.countP p = l.countP r ↔ ∀ x ∈ l, r x = true → p x = true := by
  induction l with
  | nil => simp
  | cons x l ih =>
    have hrest := ih fun y hy => h y (List.mem_cons_of_mem _ hy)
    have hle : l.countP p ≤ l.countP r :=
      List.countP_mono_left fun y hy => h y (List.mem_cons_of_mem _ hy)
    rw [List.countP_cons, List.countP_cons, List.forall_mem_cons]
    have hx := h x List.mem_cons_self
    cases hp : p x <;> cases hr : r x
    · simpa using hrest
    · simp
      omega
    · rw [hp, hr] at hx
      exact absurd (hx rfl) Bool.false_ne_true
    · simpa using hrest

variable (f : PublicIATAFilter) (db : Database) (storeNow : Int) {q : SummaryQuery}

/-- The edges that are counted, where the sums are exact. -/
theorem counted_iff (h : q.Narrow) {size : Nat}
    (hsize : (size : Int) = bucketTotal q.roundedSpan q.width) (edge : EdgeEvent) :
    Counted f db storeNow q.rounded.1 q.rounded.2 q.width size edge = true ↔
      f.allows (db.joined edge).iata = true ∧ q.rounded.1 ≤ edge.heardAt ∧
        edge.heardAt ≤ boundedHistoryTo storeNow q.rounded.2 ∧
        edge.heardAt - q.rounded.1 < bucketTotal q.roundedSpan q.width * q.width := by
  have hpos := q.width_pos h.asked
  simp only [Counted, accepted, Bool.and_eq_true, decide_eq_true_eq, hsize]
  constructor
  · rintro ⟨⟨⟨hallowed, -⟩, hlt⟩, hstart, hend⟩
    rw [Int.tdiv_eq_ediv_of_nonneg (by omega), Int.ediv_lt_iff_lt_mul hpos] at hlt
    exact ⟨hallowed, hstart, hend, hlt⟩
  · rintro ⟨hallowed, hstart, hend, hlt⟩
    rw [Int.tdiv_eq_ediv_of_nonneg (by omega), Int.ediv_lt_iff_lt_mul hpos]
    exact ⟨⟨⟨hallowed, Int.ediv_nonneg (by omega) hpos.le⟩, hlt⟩, hstart, hend⟩

/-- The counts add up exactly if no edge is at the end of a filled window, none is counted from
behind an end at 0, and none is ahead of the clock. -/
theorem counts_iff (h : q.Narrow) {size : Nat}
    (hsize : (size : Int) = bucketTotal q.roundedSpan q.width) :
    db.edges.countP (Counted f db storeNow q.rounded.1 q.rounded.2 q.width size) =
        db.edges.countP (InWindow f db q.rounded.1 q.rounded.2) ↔
      (0 < q.roundedSpan → q.width ∣ q.roundedSpan →
        ∀ edge ∈ db.edges, f.allows (db.joined edge).iata = true → edge.heardAt ≠ q.rounded.2) ∧
      (q.rounded.2 = 0 → ∀ edge ∈ db.edges, f.allows (db.joined edge).iata = true →
        0 < edge.heardAt → edge.heardAt < q.width →
          storeNow + Database.maxFutureEdgeSkew < edge.heardAt) ∧
      ∀ edge ∈ db.edges, f.allows (db.joined edge).iata = true →
        q.rounded.1 ≤ edge.heardAt → edge.heardAt ≤ q.rounded.2 →
          edge.heardAt ≤ storeNow + Database.maxFutureEdgeSkew := by
  obtain ⟨hfrom, hle, -⟩ := q.rounded_range
  have hpos := q.width_pos h.asked
  have hwindow : ∀ edge, InWindow f db q.rounded.1 q.rounded.2 edge = true ↔
      f.allows (db.joined edge).iata = true ∧ q.rounded.1 ≤ edge.heardAt ∧
        edge.heardAt ≤ q.rounded.2 := fun edge => by
    simp only [InWindow, Bool.and_eq_true, decide_eq_true_eq]
  have hspan : q.roundedSpan = q.rounded.2 - q.rounded.1 := rfl
  obtain ⟨hone, -, hbehind, -⟩ := bucketTotal_spec hpos (show 0 ≤ q.roundedSpan by omega)
  have hcounted := fun edge => counted_iff f db storeNow h hsize edge
  generalize hlimit : storeNow + Database.maxFutureEdgeSkew = limit
  have hbound : boundedHistoryTo storeNow q.rounded.2 =
      if q.rounded.2 ≤ 0 ∨ limit < q.rounded.2 then limit else q.rounded.2 := by
    rw [← hlimit]
    rfl
  rw [hbound] at hcounted
  by_cases hepoch : q.rounded.2 = 0
  · -- the window is the first instant, and the query reaches up to the limit
    have htotal : bucketTotal q.roundedSpan q.width = 1 := if_pos (by omega)
    rw [if_pos (by omega), htotal, Int.one_mul] at hcounted
    by_cases hlimited : 0 ≤ limit
    · rw [eq_comm, countP_eq_iff_of_imp fun edge _ hin => (hcounted edge).mpr (by
        obtain ⟨hallowed, hstart, hend⟩ := (hwindow edge).mp hin
        exact ⟨hallowed, hstart, by omega, by omega⟩)]
      constructor
      · refine fun hall => ⟨by omega, fun _ edge hedge hallowed hlate hnear => ?_,
          fun edge _ _ _ hend => by omega⟩
        by_contra hreach
        obtain ⟨-, -, hend⟩ := (hwindow edge).mp (hall edge hedge ((hcounted edge).mpr
          ⟨hallowed, by omega, by omega, by omega⟩))
        omega
      · rintro ⟨-, hnone, -⟩ edge hedge hcount
        obtain ⟨hallowed, hstart, hreach, hnear⟩ := (hcounted edge).mp hcount
        refine (hwindow edge).mpr ⟨hallowed, hstart, ?_⟩
        by_contra hlate
        have := hnone hepoch edge hedge hallowed (by omega) (by omega)
        omega
    · rw [countP_eq_iff_of_imp fun edge _ hcount => by
        obtain ⟨-, hstart, hreach, -⟩ := (hcounted edge).mp hcount
        omega]
      constructor
      · refine fun hall => ⟨by omega, fun _ edge _ _ hlate _ => by omega,
          fun edge hedge hallowed hstart hend => ?_⟩
        obtain ⟨-, -, hreach, -⟩ := (hcounted edge).mp (hall edge hedge
          ((hwindow edge).mpr ⟨hallowed, hstart, hend⟩))
        exact hreach
      · rintro ⟨-, -, hclock⟩ edge hedge hin
        obtain ⟨hallowed, hstart, hend⟩ := (hwindow edge).mp hin
        have := hclock edge hedge hallowed hstart hend
        omega
  · have hreach : ∀ heardAt, heardAt ≤ q.rounded.2 →
        (heardAt ≤ (if q.rounded.2 ≤ 0 ∨ limit < q.rounded.2 then limit else q.rounded.2) ↔
          heardAt ≤ limit) := by
      intro heardAt hend
      split <;> omega
    rw [countP_eq_iff_of_imp fun edge _ hcount => by
      obtain ⟨hallowed, hstart, hin, -⟩ := (hcounted edge).mp hcount
      refine (hwindow edge).mpr ⟨hallowed, hstart, ?_⟩
      split at hin <;> omega]
    constructor
    · intro hall
      have hboth : ∀ edge ∈ db.edges, f.allows (db.joined edge).iata = true →
          q.rounded.1 ≤ edge.heardAt → edge.heardAt ≤ q.rounded.2 → edge.heardAt ≤ limit ∧
            edge.heardAt - q.rounded.1 < bucketTotal q.roundedSpan q.width * q.width := by
        intro edge hedge hallowed hstart hend
        obtain ⟨-, -, hin, hlt⟩ := (hcounted edge).mp (hall edge hedge
          ((hwindow edge).mpr ⟨hallowed, hstart, hend⟩))
        exact ⟨(hreach _ hend).mp hin, hlt⟩
      refine ⟨fun hwide hdvd edge hedge hallowed hlast => ?_, fun hzero => absurd hzero hepoch,
        fun edge hedge hallowed hstart hend => (hboth edge hedge hallowed hstart hend).1⟩
      have hfull := (eq_bucketTotal_mul_iff hpos hwide).mpr hdvd
      have := (hboth edge hedge hallowed (by omega) (by omega)).2
      omega
    · rintro ⟨hlast, -, hclock⟩ edge hedge hin
      obtain ⟨hallowed, hstart, hend⟩ := (hwindow edge).mp hin
      refine (hcounted edge).mpr ⟨hallowed, hstart,
        (hreach _ hend).mpr (hclock edge hedge hallowed hstart hend), ?_⟩
      by_contra hbeyond
      have hfull : q.roundedSpan = bucketTotal q.roundedSpan q.width * q.width := by omega
      by_cases hwide : 0 < q.roundedSpan
      · exact hlast hwide ((eq_bucketTotal_mul_iff hpos hwide).mp hfull) edge hedge hallowed (by omega)
      · have : 1 * q.width ≤ bucketTotal q.roundedSpan q.width * q.width :=
          Int.mul_le_mul_of_nonneg_right hone hpos.le
        omega

/-- The buckets of a summary tile its window without a loss, in 64 bits, exactly if their width
fits the window. -/
theorem summary_tiles_iff (q : SummaryQuery) :
    (q.WithinInt64 ∧ ∃ response, q.respond f db storeNow = some response ∧
        response.fromMs = q.rounded.1 ∧ response.toMs = q.rounded.2 ∧ TilesWindow f db response) ↔
      Fitting f db storeNow q := by
  have hresult : q.Narrow → ((∃ response, q.respond f db storeNow = some response ∧
      response.fromMs = q.rounded.1 ∧ response.toMs = q.rounded.2 ∧ TilesWindow f db response) ↔
        Fitting f db storeNow q) := by
    intro h
    have hpos := q.width_pos h.asked
    obtain ⟨hfrom, hle, -⟩ := q.rounded_range
    obtain ⟨response, size, hresponse, hsize, hstart, hend, hlength, hspans, hsum⟩ :=
      q.respond_eq f db storeNow h
    have hfew : response.buckets.length ≤ 288 ↔ q.roundedSpan ≤ 288 * q.width := by
      rw [← bucketTotal_le_iff hpos, ← hsize, hlength]
      omega
    have hcounts := counts_iff f db storeNow h hsize
    constructor
    · rintro ⟨other, hother, -, -, htiles⟩
      obtain rfl := Option.some.inj (hresponse.symm.trans hother)
      have hcount := htiles.counts
      rw [hsum, hstart, hend] at hcount
      obtain ⟨hlast, hepoch, hclock⟩ := hcounts.mp (Int.ofNat.inj hcount)
      exact ⟨h, hfew.mp htiles.length_le, hlast, hepoch, hclock⟩
    · intro hfits
      refine ⟨response, hresponse, hstart, hend, hfew.mpr hfits.few, ?_, ?_⟩
      · rw [hspans, hstart, hend]
        exact tile_tileSpans hpos hle hsize
      · rw [hsum, hstart, hend]
        exact congrArg Int.ofNat (hcounts.mpr ⟨hfits.last, hfits.epoch, hfits.clock⟩)
  constructor
  · rintro ⟨hwithin, hresponse⟩
    exact (hresult (q.withinInt64_iff.mp hwithin)).mp hresponse
  · intro hfits
    exact ⟨q.withinInt64_iff.mpr hfits.narrow, (hresult hfits.narrow).mpr hfits⟩

/-! ## A window that loses its last instant -/

/-- A request for five minutes in buckets of a minute. -/
def fiveMinutes : SummaryQuery :=
  { fromQuery := some 1700000010000, toQuery := some 1700000310000, bucketQuery := some 60000
    now := 1700001000000, now_pos := by decide }

/-- An edge that is heard at the end of the five minutes. -/
def lastInstant : Database :=
  { emptyDatabase with
    edges := [
      { ingestID := "", id := 1, packetHash := "AB12", observationID := 1, iata := "YKF"
        payloadTypeName := "ADVERT", messageSender := "", messageText := "", messageAnchor := none
        heardAt := 1700000310000, segments := [] }] }

theorem last_instant_lost :
    ¬∀ (f : PublicIATAFilter) (db : Database) (storeNow : Int) (q : SummaryQuery),
      q.WithinInt64 ∧ ∃ response, q.respond f db storeNow = some response ∧
        response.fromMs = q.rounded.1 ∧ response.toMs = q.rounded.2 ∧ TilesWindow f db response := by
  intro h
  obtain ⟨-, response, hresponse, hstart, hend, htiles⟩ :=
    h (newPublicIATAFilter []) lastInstant 1700001000000 fiveMinutes
  have hcount := htiles.counts
  rw [hstart, hend] at hcount
  have hsum : ((fiveMinutes.respond (newPublicIATAFilter []) lastInstant 1700001000000).map
      fun response => (response.buckets.map SummaryBucket.count).sum) = some 0 := by decide +kernel
  have hedges : lastInstant.edges.countP (InWindow (newPublicIATAFilter []) lastInstant
      fiveMinutes.rounded.1 fiveMinutes.rounded.2) = 1 := by decide +kernel
  rw [hresponse, Option.map_some, hcount, hedges] at hsum
  cases hsum

end CartoLive.Theorems.HistoryBuckets
