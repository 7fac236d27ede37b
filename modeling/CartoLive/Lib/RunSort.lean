import Mathlib.Data.List.Basic
import Mathlib.Data.List.InsertIdx
import Mathlib.Data.List.Sort

/-!
# A sort that finds runs

The stable sort of the engines: it takes the items in natural runs, a strictly descending
run backwards, fills short runs up by binary insertion, and merges runs so that the lengths
of those that wait stay balanced. The comparator answers with a number, like that of
`Array.prototype.sort`.

The searches with which a merge skips comparisons are left out: with a comparator that
orders the items they change nothing.

## Main results

* `perm_runSort` : the result is a permutation, whatever the comparator.
* `pairwise_runSort` : it is in order when the comparator orders the items.
-/

namespace CartoLive.Lib.RunSort

variable {α : Type} (compare : α → α → Int)

/-! ## Runs -/

/-- How far a run goes on behind its last item. -/
def takeRun (descending : Bool) : α → List α → List α × List α
  | _, [] => ([], [])
  | last, x :: rest =>
    if decide (compare x last < 0) = descending then
      let (run, left) := takeRun descending x rest
      (x :: run, left)
    else ([], x :: rest)

/-- The first run, in order, and the items behind it. -/
def makeRun : List α → List α × List α
  | [] => ([], [])
  | [x] => ([x], [])
  | x :: y :: rest =>
    let descending := decide (compare y x < 0)
    let (run, left) := takeRun compare descending y rest
    (if descending then (x :: y :: run).reverse else x :: y :: run, left)

/-- Binary search for the place of a pivot behind the items that are not greater. -/
def searchPlace (pivot : α) (run : List α) : Nat → Nat → Nat → Nat
  | 0, low, _ => low
  | fuel + 1, low, high =>
    if low < high then
      let mid := low + (high - low) / 2
      match run[mid]? with
      | none => low
      | some x =>
        if compare pivot x < 0 then searchPlace pivot run fuel low mid
        else searchPlace pivot run fuel (mid + 1) high
    else low

def binaryInsert (run : List α) (pivot : α) : List α :=
  let place := searchPlace compare pivot run run.length 0 run.length
  run.take place ++ pivot :: run.drop place

/-- The shortest run for a number of items: the number itself below 64, and otherwise its
first six bits, one more if any other bit is set. -/
def minRunLength : Nat → Nat → Nat → Nat
  | 0, n, odd => n + odd
  | fuel + 1, n, odd =>
    if 64 ≤ n then minRunLength fuel (n / 2) (max odd (n % 2)) else n + odd

/-- The next run, filled up to the shortest length. -/
def nextRun (shortest : Nat) (items : List α) : List α × List α :=
  let (run, left) := makeRun compare items
  let missing := shortest - run.length
  ((left.take missing).foldl (binaryInsert compare) run, left.drop missing)

/-! ## Merging -/

/-- The left items come first where the comparator does not decide. -/
def mergeRuns (left right : List α) : List α :=
  left.merge right fun x y => decide (0 ≤ compare y x)

/-- Merges until the lengths of the waiting runs, the latest first, are balanced. -/
def collapse : Nat → List (List α) → List (List α)
  | fuel + 1, c :: b :: a :: rest =>
    let unbalanced := a.length ≤ b.length + c.length ||
      match rest with
      | z :: _ => z.length ≤ a.length + b.length
      | [] => false
    if unbalanced then
      if a.length < c.length then collapse fuel (c :: mergeRuns compare a b :: rest)
      else collapse fuel (mergeRuns compare b c :: a :: rest)
    else if b.length ≤ c.length then collapse fuel (mergeRuns compare b c :: a :: rest)
    else c :: b :: a :: rest
  | fuel + 1, [c, b] =>
    if b.length ≤ c.length then collapse fuel [mergeRuns compare b c] else [c, b]
  | _, runs => runs

/-- Merges until one run is left. -/
def forceCollapse : Nat → List (List α) → List (List α)
  | fuel + 1, c :: b :: a :: rest =>
    if a.length < c.length then forceCollapse fuel (c :: mergeRuns compare a b :: rest)
    else forceCollapse fuel (mergeRuns compare b c :: a :: rest)
  | _, [c, b] => [mergeRuns compare b c]
  | _, runs => runs

/-- Takes the runs one by one. -/
def collectRuns (shortest : Nat) : Nat → List α → List (List α) → List (List α)
  | 0, _, runs => runs
  | _ + 1, [], runs => runs
  | fuel + 1, x :: items, runs =>
    let (run, left) := nextRun compare shortest (x :: items)
    collectRuns shortest fuel left (collapse compare (runs.length + 1) (run :: runs))

def runSort (items : List α) : List α :=
  let runs := collectRuns compare (minRunLength items.length items.length 0) items.length items []
  (forceCollapse compare runs.length runs).flatten

/-! ## The same items -/

theorem takeRun_append (descending : Bool) (last : α) (items : List α) :
    (takeRun compare descending last items).1 ++ (takeRun compare descending last items).2 =
      items := by
  induction items generalizing last with
  | nil => rfl
  | cons x rest ih =>
    rw [takeRun]
    split
    · exact congrArg (x :: ·) (ih x)
    · rfl

theorem perm_makeRun (items : List α) :
    ((makeRun compare items).1 ++ (makeRun compare items).2).Perm items := by
  match items with
  | [] => exact .nil
  | [x] => exact .refl _
  | x :: y :: rest =>
    have happend := takeRun_append compare (decide (compare y x < 0)) y rest
    have hitems : (x :: y :: (takeRun compare (decide (compare y x < 0)) y rest).1) ++
        (takeRun compare (decide (compare y x < 0)) y rest).2 = x :: y :: rest :=
      congrArg (fun items => x :: y :: items) happend
    rw [makeRun]
    dsimp only
    split
    · refine .trans (.append_right _ (List.reverse_perm _)) ?_
      rw [hitems]
    · rw [hitems]

theorem perm_binaryInsert (run : List α) (pivot : α) :
    (binaryInsert compare run pivot).Perm (pivot :: run) := by
  unfold binaryInsert
  dsimp only
  refine List.perm_middle.trans (.cons pivot ?_)
  rw [List.take_append_drop]

theorem perm_foldl_binaryInsert (items run : List α) :
    (items.foldl (binaryInsert compare) run).Perm (run ++ items) := by
  induction items generalizing run with
  | nil => simp
  | cons x items ih =>
    refine (ih _).trans ?_
    refine .trans (.append_right items (perm_binaryInsert compare run x)) ?_
    exact List.perm_middle.symm

theorem perm_nextRun (shortest : Nat) (items : List α) :
    ((nextRun compare shortest items).1 ++ (nextRun compare shortest items).2).Perm items := by
  unfold nextRun
  dsimp only
  refine .trans (.append_right _ (perm_foldl_binaryInsert compare _ _)) ?_
  rw [List.append_assoc, List.take_append_drop]
  exact perm_makeRun compare items

theorem perm_mergeRuns (left right : List α) :
    (mergeRuns compare left right).Perm (left ++ right) :=
  List.merge_perm_append _

theorem perm_flatten_merge_top (c b : List α) (rest : List (List α)) :
    (mergeRuns compare b c :: rest).flatten.Perm (c :: b :: rest).flatten := by
  rw [List.flatten_cons, List.flatten_cons, List.flatten_cons, ← List.append_assoc]
  exact .append_right _ ((perm_mergeRuns compare b c).trans List.perm_append_comm)

theorem perm_flatten_merge_below (c b a : List α) (rest : List (List α)) :
    (c :: mergeRuns compare a b :: rest).flatten.Perm (c :: b :: a :: rest).flatten := by
  rw [List.flatten_cons, List.flatten_cons]
  exact .append_left c (perm_flatten_merge_top compare b a rest)

theorem perm_collapse (fuel : Nat) (runs : List (List α)) :
    (collapse compare fuel runs).flatten.Perm runs.flatten := by
  fun_induction collapse compare fuel runs with
  | case1 fuel c b a rest unbalanced hunbalanced hshort ih =>
    exact ih.trans (perm_flatten_merge_below compare c b a rest)
  | case2 fuel c b a rest unbalanced hunbalanced hlong ih =>
    exact ih.trans (perm_flatten_merge_top compare c b _)
  | case3 fuel c b a rest unbalanced hbalanced hle ih =>
    exact ih.trans (perm_flatten_merge_top compare c b _)
  | case4 => exact .refl _
  | case5 fuel c b hle ih => exact ih.trans (perm_flatten_merge_top compare c b [])
  | case6 => exact .refl _
  | case7 => exact .refl _

theorem perm_forceCollapse (fuel : Nat) (runs : List (List α)) :
    (forceCollapse compare fuel runs).flatten.Perm runs.flatten := by
  fun_induction forceCollapse compare fuel runs with
  | case1 fuel c b a rest hshort ih => exact ih.trans (perm_flatten_merge_below compare c b a rest)
  | case2 fuel c b a rest hlong ih => exact ih.trans (perm_flatten_merge_top compare c b _)
  | case3 fuel c b => exact perm_flatten_merge_top compare c b []
  | case4 => exact .refl _

theorem length_makeRun_pos (x : α) (items : List α) :
    0 < (makeRun compare (x :: items)).1.length := by
  cases items with
  | nil => exact Nat.one_pos
  | cons y rest =>
    rw [makeRun]
    dsimp only
    split
    · rw [List.length_reverse]
      exact Nat.succ_pos _
    · exact Nat.succ_pos _

/-- A run takes an item at least. -/
theorem length_left_lt (shortest : Nat) (x : α) (items : List α) :
    (nextRun compare shortest (x :: items)).2.length ≤ items.length := by
  have hlength := (perm_nextRun compare shortest (x :: items)).length_eq
  have hrun : 0 < (nextRun compare shortest (x :: items)).1.length := by
    have hpos := length_makeRun_pos compare x items
    unfold nextRun
    dsimp only
    rw [(perm_foldl_binaryInsert compare _ _).length_eq, List.length_append]
    omega
  rw [List.length_append, List.length_cons] at hlength
  omega

theorem perm_collectRuns (shortest fuel : Nat) (items : List α) (runs : List (List α))
    (hfuel : items.length ≤ fuel) :
    (collectRuns compare shortest fuel items runs).flatten.Perm (runs.flatten ++ items) := by
  induction fuel generalizing items runs with
  | zero =>
    rw [List.length_eq_zero_iff.mp (by omega : items.length = 0), List.append_nil]
    exact .refl _
  | succ fuel ih =>
    cases items with
    | nil =>
      rw [List.append_nil]
      exact .refl _
    | cons x items =>
      rw [collectRuns]
      dsimp only
      have hleft := length_left_lt compare shortest x items
      refine (ih _ _ (Nat.le_trans hleft (Nat.le_of_succ_le_succ hfuel))).trans ?_
      refine .trans (.append_right _ (perm_collapse compare _ _)) ?_
      rw [List.flatten_cons, List.append_assoc]
      refine .trans List.perm_append_comm ?_
      rw [List.append_assoc]
      refine .append_left _ (List.perm_append_comm.trans ?_)
      exact perm_nextRun compare shortest (x :: items)

/-- The sort keeps the items, whatever the comparator. -/
theorem perm_runSort (items : List α) : (runSort compare items).Perm items :=
  (perm_forceCollapse compare _ _).trans (perm_collectRuns compare _ _ items [] (Nat.le_refl _))

/-! ## The order -/

variable {compare}

/-- The comparator orders some items. -/
structure Orders (compare : α → α → Int) (items : List α) : Prop where
  flip : ∀ a ∈ items, ∀ b ∈ items, 0 ≤ compare a b → compare b a ≤ 0
  trans : ∀ a ∈ items, ∀ b ∈ items, ∀ c ∈ items,
    compare a b ≤ 0 → compare b c ≤ 0 → compare a c ≤ 0

theorem Orders.subset {items some : List α} (h : Orders compare items) (hsub : some ⊆ items) :
    Orders compare some where
  flip a ha b hb := h.flip a (hsub ha) b (hsub hb)
  trans a ha b hb c hc := h.trans a (hsub ha) b (hsub hb) c (hsub hc)

def InOrder (compare : α → α → Int) (run : List α) : Prop :=
  run.Pairwise fun a b => compare a b ≤ 0

theorem takeRun_subset (descending : Bool) (last : α) (items : List α) :
    (takeRun compare descending last items).1 ⊆ items := by
  intro x hx
  rw [← takeRun_append compare descending last items]
  exact List.mem_append_left _ hx

/-- An ascending run is in order. -/
theorem inOrder_takeRun {last : α} {items : List α} (h : Orders compare (last :: items)) :
    InOrder compare (last :: (takeRun compare false last items).1) := by
  induction items generalizing last with
  | nil => exact List.pairwise_singleton ..
  | cons x rest ih =>
    rw [takeRun]
    split
    · rename_i hup
      have hle : compare last x ≤ 0 := by
        have hge : ¬ compare x last < 0 := by simpa using hup
        exact h.flip x (by simp) last (by simp) (by omega)
      have hrun := ih (h.subset (List.subset_cons_self _ _))
      refine List.pairwise_cons.mpr ⟨fun y hy => ?_, hrun⟩
      rcases List.mem_cons.mp hy with rfl | hy
      · exact hle
      · have hmem := takeRun_subset _ _ _ hy
        exact h.trans last (by simp) x (by simp) y (by simp [hmem]) hle
          ((List.pairwise_cons.mp hrun).1 y hy)
    · exact List.pairwise_singleton ..

/-- A descending run is in order backwards. -/
theorem inOrder_takeRun_reverse {last : α} {items : List α}
    (h : Orders compare (last :: items)) :
    (last :: (takeRun compare true last items).1).Pairwise fun a b => compare b a ≤ 0 := by
  induction items generalizing last with
  | nil => exact List.pairwise_singleton ..
  | cons x rest ih =>
    rw [takeRun]
    split
    · rename_i hdown
      have hle : compare x last ≤ 0 := by
        have hlt : compare x last < 0 := by simpa using hdown
        omega
      have hrun := ih (h.subset (List.subset_cons_self _ _))
      refine List.pairwise_cons.mpr ⟨fun y hy => ?_, hrun⟩
      rcases List.mem_cons.mp hy with rfl | hy
      · exact hle
      · have hmem := takeRun_subset _ _ _ hy
        exact h.trans y (by simp [hmem]) x (by simp) last (by simp)
          ((List.pairwise_cons.mp hrun).1 y hy) hle
    · exact List.pairwise_singleton ..

theorem inOrder_makeRun {items : List α} (h : Orders compare items) :
    InOrder compare (makeRun compare items).1 := by
  match items with
  | [] => exact .nil
  | [x] => exact List.pairwise_singleton ..
  | x :: y :: rest =>
    have hxy : makeRun compare (x :: y :: rest) =
        (if decide (compare y x < 0) = true then
          (x :: (takeRun compare (decide (compare y x < 0)) x (y :: rest)).1).reverse
        else x :: (takeRun compare (decide (compare y x < 0)) x (y :: rest)).1,
        (takeRun compare (decide (compare y x < 0)) y rest).2) := by
      rw [makeRun, takeRun, if_pos rfl]
    rw [hxy]
    dsimp only
    cases decide (compare y x < 0)
    · exact inOrder_takeRun h
    · exact List.pairwise_reverse.mpr (inOrder_takeRun_reverse h)


/-- The place of a pivot: nothing before it is greater, and nothing behind it smaller. -/
structure Parts (compare : α → α → Int) (pivot : α) (run : List α) (low high : Nat) : Prop where
  below : ∀ x ∈ run.take low, compare x pivot ≤ 0
  above : ∀ x ∈ run.drop high, compare pivot x ≤ 0

theorem parts_searchPlace {pivot : α} {run : List α} (h : Orders compare (pivot :: run))
    (hrun : InOrder compare run) (fuel low high : Nat) (hfuel : high - low ≤ fuel)
    (hhigh : high ≤ run.length) (hle : low ≤ high) (hparts : Parts compare pivot run low high) :
    Parts compare pivot run (searchPlace compare pivot run fuel low high)
      (searchPlace compare pivot run fuel low high) := by
  have hpivot : pivot ∈ pivot :: run := List.mem_cons_self
  have hmem : ∀ x ∈ run, x ∈ pivot :: run := fun x hx => List.mem_cons_of_mem pivot hx
  induction fuel generalizing low high with
  | zero =>
    have hsame : low = high := by omega
    subst hsame
    exact hparts
  | succ fuel ih =>
    rw [searchPlace]
    by_cases hlt : low < high
    · rw [if_pos hlt]
      dsimp only
      have hmid : low + (high - low) / 2 < run.length := by omega
      generalize hplace : low + (high - low) / 2 = mid at hmid ⊢
      rw [List.getElem?_eq_getElem hmid]
      dsimp only
      have hsplit : run.take mid ++ run.drop mid = run := List.take_append_drop mid run
      have hdrop : run.drop mid = run[mid] :: run.drop (mid + 1) := List.drop_eq_getElem_cons hmid
      have hat : run[mid] ∈ run := List.getElem_mem hmid
      have hordered := hrun
      rw [InOrder, ← hsplit, hdrop] at hordered
      obtain ⟨-, hbehind, hbefore⟩ := List.pairwise_append.mp hordered
      split
      · rename_i hless
        refine ih low mid (by omega) (by omega) (by omega) ⟨hparts.below, fun x hx => ?_⟩
        rw [hdrop] at hx
        rcases List.mem_cons.mp hx with rfl | hx
        · omega
        · have hxrun : x ∈ run := List.mem_of_mem_drop hx
          exact h.trans pivot hpivot _ (hmem _ hat) x (hmem x hxrun) (by omega)
            ((List.pairwise_cons.mp hbehind).1 x hx)
      · rename_i hnot
        have hupto : compare run[mid] pivot ≤ 0 :=
          h.flip pivot hpivot _ (hmem _ hat) (by omega)
        refine ih (mid + 1) high (by omega) (by omega) (by omega) ⟨fun x hx => ?_, hparts.above⟩
        rw [List.take_succ_eq_append_getElem hmid] at hx
        rcases List.mem_append.mp hx with hx | hx
        · have hxrun : x ∈ run := List.mem_of_mem_take hx
          exact h.trans x (hmem x hxrun) _ (hmem _ hat) pivot hpivot
            (hbefore x hx _ List.mem_cons_self) hupto
        · rw [List.mem_singleton.mp hx]
          exact hupto
    · rw [if_neg hlt]
      have hsame : low = high := by omega
      subst hsame
      exact hparts

theorem inOrder_binaryInsert {pivot : α} {run : List α} (h : Orders compare (pivot :: run))
    (hrun : InOrder compare run) : InOrder compare (binaryInsert compare run pivot) := by
  have hparts := parts_searchPlace h hrun run.length 0 run.length (by omega) (Nat.le_refl _)
    (Nat.zero_le _) ⟨by simp, by simp⟩
  unfold binaryInsert
  dsimp only
  generalize searchPlace compare pivot run run.length 0 run.length = place at hparts ⊢
  have hsplit : run.take place ++ run.drop place = run := List.take_append_drop place run
  have hordered := hrun
  rw [InOrder, ← hsplit] at hordered
  obtain ⟨hbefore, hbehind, hacross⟩ := List.pairwise_append.mp hordered
  refine List.pairwise_append.mpr ⟨hbefore, List.pairwise_cons.mpr ⟨hparts.above, hbehind⟩, ?_⟩
  intro x hx y hy
  rcases List.mem_cons.mp hy with rfl | hy
  · exact hparts.below x hx
  · exact hacross x hx y hy

theorem inOrder_foldl_binaryInsert {items run : List α} (h : Orders compare (run ++ items))
    (hrun : InOrder compare run) : InOrder compare (items.foldl (binaryInsert compare) run) := by
  induction items generalizing run with
  | nil => exact hrun
  | cons x items ih =>
    have hperm := perm_binaryInsert compare run x
    refine ih (h.subset fun y hy => ?_) (inOrder_binaryInsert (h.subset fun y hy => ?_) hrun)
    · rcases List.mem_append.mp hy with hy | hy
      · rcases List.mem_cons.mp (hperm.mem_iff.mp hy) with rfl | hy
        · simp
        · exact List.mem_append_left _ hy
      · simp [hy]
    · rcases List.mem_cons.mp hy with rfl | hy
      · simp
      · exact List.mem_append_left _ hy

theorem inOrder_nextRun (shortest : Nat) {items : List α} (h : Orders compare items) :
    InOrder compare (nextRun compare shortest items).1 := by
  unfold nextRun
  dsimp only
  refine inOrder_foldl_binaryInsert (h.subset fun x hx => ?_) (inOrder_makeRun h)
  refine (perm_makeRun compare items).mem_iff.mp ?_
  exact (List.mem_append.mp hx).elim (List.mem_append_left _)
    fun hx => List.mem_append_right _ (List.mem_of_mem_take hx)

/-- The merge of two runs is in order. -/
theorem inOrder_mergeRuns {left right : List α} (h : Orders compare (left ++ right))
    (hleft : InOrder compare left) (hright : InOrder compare right) :
    InOrder compare (mergeRuns compare left right) := by
  induction left generalizing right with
  | nil => simpa [mergeRuns] using hright
  | cons x left ihleft =>
    induction right with
    | nil => simpa [mergeRuns] using hleft
    | cons y right ihright =>
      have hxmem : x ∈ x :: left ++ y :: right := by simp
      have hymem : y ∈ x :: left ++ y :: right := by simp
      obtain ⟨hx, hleft'⟩ := List.pairwise_cons.mp hleft
      obtain ⟨hy, hright'⟩ := List.pairwise_cons.mp hright
      unfold mergeRuns
      rw [List.cons_merge_cons]
      split
      · rename_i htake
        have hxy : compare x y ≤ 0 := h.flip y hymem x hxmem (of_decide_eq_true htake)
        refine List.pairwise_cons.mpr ⟨fun z hz => ?_, ?_⟩
        · rcases List.mem_append.mp ((perm_mergeRuns compare _ _).mem_iff.mp hz) with hz | hz
          · exact hx z hz
          · rcases List.mem_cons.mp hz with rfl | hz
            · exact hxy
            · exact h.trans x hxmem y hymem z (by simp [hz]) hxy (hy z hz)
        · exact ihleft (h.subset fun z hz => by simp at hz ⊢; tauto) hleft' hright
      · rename_i htake
        have hyx : compare y x ≤ 0 := by
          have hlt : ¬ 0 ≤ compare y x := fun hge => htake (decide_eq_true hge)
          omega
        refine List.pairwise_cons.mpr ⟨fun z hz => ?_, ?_⟩
        · rcases List.mem_append.mp ((perm_mergeRuns compare _ _).mem_iff.mp hz) with hz | hz
          · rcases List.mem_cons.mp hz with rfl | hz
            · exact hyx
            · exact h.trans y hymem x hxmem z (by simp [hz]) hyx (hx z hz)
          · exact hy z hz
        · exact ihright (h.subset fun z hz => by simp at hz ⊢; tauto) hright'

/-- Runs of some items that are in order. -/
def Ordered (compare : α → α → Int) (items : List α) (runs : List (List α)) : Prop :=
  ∀ run ∈ runs, run ⊆ items ∧ InOrder compare run

theorem merged {items a b : List α} (h : Orders compare items)
    (ha : a ⊆ items ∧ InOrder compare a) (hb : b ⊆ items ∧ InOrder compare b) :
    mergeRuns compare a b ⊆ items ∧ InOrder compare (mergeRuns compare a b) := by
  have hsub : a ++ b ⊆ items := List.append_subset.mpr ⟨ha.1, hb.1⟩
  exact ⟨fun x hx => hsub ((perm_mergeRuns compare a b).mem_iff.mp hx),
    inOrder_mergeRuns (h.subset hsub) ha.2 hb.2⟩

theorem Ordered.merge_top {items c b : List α} {rest : List (List α)} (h : Orders compare items)
    (hruns : Ordered compare items (c :: b :: rest)) :
    Ordered compare items (mergeRuns compare b c :: rest) := by
  intro run hrun
  rcases List.mem_cons.mp hrun with rfl | hrun
  · exact merged h (hruns b (by simp)) (hruns c (by simp))
  · exact hruns run (by simp [hrun])

theorem Ordered.merge_below {items c b a : List α} {rest : List (List α)}
    (h : Orders compare items) (hruns : Ordered compare items (c :: b :: a :: rest)) :
    Ordered compare items (c :: mergeRuns compare a b :: rest) := by
  intro run hrun
  rcases List.mem_cons.mp hrun with rfl | hrun
  · exact hruns run (by simp)
  · exact merge_top h (fun run hrun => hruns run (by simp at hrun ⊢; tauto)) run hrun

theorem ordered_collapse {items : List α} (h : Orders compare items) (fuel : Nat)
    (runs : List (List α)) (hruns : Ordered compare items runs) :
    Ordered compare items (collapse compare fuel runs) := by
  fun_induction collapse compare fuel runs with
  | case1 fuel c b a rest unbalanced hunbalanced hshort ih => exact ih (hruns.merge_below h)
  | case2 fuel c b a rest unbalanced hunbalanced hlong ih => exact ih (hruns.merge_top h)
  | case3 fuel c b a rest unbalanced hbalanced hle ih => exact ih (hruns.merge_top h)
  | case4 => exact hruns
  | case5 fuel c b hle ih => exact ih (hruns.merge_top h)
  | case6 => exact hruns
  | case7 => exact hruns

theorem ordered_forceCollapse {items : List α} (h : Orders compare items) (fuel : Nat)
    (runs : List (List α)) (hruns : Ordered compare items runs) :
    Ordered compare items (forceCollapse compare fuel runs) := by
  fun_induction forceCollapse compare fuel runs with
  | case1 fuel c b a rest hshort ih => exact ih (hruns.merge_below h)
  | case2 fuel c b a rest hlong ih => exact ih (hruns.merge_top h)
  | case3 fuel c b => exact hruns.merge_top h
  | case4 => exact hruns

/-- Enough rounds leave one run. -/
theorem length_forceCollapse (fuel : Nat) (runs : List (List α)) (hfuel : runs.length ≤ fuel + 1) :
    (forceCollapse compare fuel runs).length ≤ 1 := by
  fun_induction forceCollapse compare fuel runs with
  | case1 fuel c b a rest hshort ih =>
    simp only [List.length_cons] at hfuel ih
    exact ih (by omega)
  | case2 fuel c b a rest hlong ih =>
    simp only [List.length_cons] at hfuel ih
    exact ih (by omega)
  | case3 fuel c b => exact Nat.le_refl 1
  | case4 fuel runs htwo hmany =>
    match runs with
    | [] => exact Nat.zero_le 1
    | [c] => exact Nat.le_refl 1
    | [c, b] => exact (htwo c b rfl).elim
    | c :: b :: a :: rest =>
      match fuel with
      | 0 =>
        simp only [List.length_cons] at hfuel
        omega
      | fuel + 1 => exact (hmany fuel c b a rest rfl rfl).elim

theorem ordered_collectRuns {all : List α} (h : Orders compare all) (shortest fuel : Nat)
    (items : List α) (runs : List (List α)) (hitems : items ⊆ all)
    (hruns : Ordered compare all runs) :
    Ordered compare all (collectRuns compare shortest fuel items runs) := by
  induction fuel generalizing items runs with
  | zero => exact hruns
  | succ fuel ih =>
    cases items with
    | nil => exact hruns
    | cons x items =>
      have hperm := perm_nextRun compare shortest (x :: items)
      have hsub : (nextRun compare shortest (x :: items)).1 ++
          (nextRun compare shortest (x :: items)).2 ⊆ all := fun y hy =>
        hitems (hperm.mem_iff.mp hy)
      obtain ⟨hrun, hleft⟩ := List.append_subset.mp hsub
      rw [collectRuns]
      refine ih _ _ hleft (ordered_collapse h _ _ fun run hmem => ?_)
      rcases List.mem_cons.mp hmem with rfl | hmem
      · exact ⟨hrun, inOrder_nextRun shortest (h.subset hitems)⟩
      · exact hruns run hmem

/-- The sort puts the items in order if the comparator orders them. -/
theorem inOrder_runSort {items : List α} (h : Orders compare items) :
    InOrder compare (runSort compare items) := by
  unfold runSort
  dsimp only
  generalize hruns : collectRuns compare _ _ items [] = runs
  have hcollected : Ordered compare items runs := by
    rw [← hruns]
    exact ordered_collectRuns h _ _ items [] (List.Subset.refl _) fun run hrun => by cases hrun
  have hordered := ordered_forceCollapse h runs.length runs hcollected
  have hlength : (forceCollapse compare runs.length runs).length ≤ 1 :=
    length_forceCollapse _ _ (by omega)
  match hone : forceCollapse compare runs.length runs with
  | [] => exact .nil
  | [run] =>
    rw [List.flatten_singleton]
    exact (hordered run (by rw [hone]; simp)).2
  | _ :: _ :: _ =>
    rw [hone] at hlength
    simp at hlength

/-- Three items that fall strictly are turned round, whether or not the comparator orders them. -/
theorem runSort_descending_three {a b c : α} (hba : compare b a < 0) (hcb : compare c b < 0) :
    runSort compare [a, b, c] = [c, b, a] := by
  simp [runSort, collectRuns, nextRun, makeRun, takeRun, collapse, forceCollapse, minRunLength,
    hba, hcb]

end CartoLive.Lib.RunSort

/-!
## Sorting by a comparator

Comparators that answer with an `Ordering`, as they are handed to a sort: what is compared by a
key, and the sorted list of a permutation. A sort by a comparator that tells the items apart
forgets the order in which they came.
-/

namespace CartoLive.Lib.Comparators

open Std

universe u v

variable {α : Type u} {β : Type v} (cmp : β → β → Ordering)

/-- What is compared by a key. -/
theorem transCmp_on [TransCmp cmp] (f : α → β) : TransCmp fun a b => cmp (f a) (f b) where
  eq_swap := OrientedCmp.eq_swap
  isLE_trans := TransCmp.isLE_trans

theorem isLE_total [OrientedCmp cmp] (a b : β) : (cmp a b).isLE ∨ (cmp b a).isLE := by
  have hswap : cmp b a = (cmp a b).swap := OrientedCmp.eq_swap
  rw [hswap]
  cases cmp a b with
  | lt => exact Or.inl rfl
  | eq => exact Or.inl rfl
  | gt => exact Or.inr rfl

theorem eq_of_isLE_of_isLE [OrientedCmp cmp] {a b : β} (hab : (cmp a b).isLE)
    (hba : (cmp b a).isLE) : cmp a b = .eq := by
  have hswap : cmp b a = (cmp a b).swap := OrientedCmp.eq_swap
  rw [hswap] at hba
  cases h : cmp a b with
  | lt =>
    rw [h] at hba
    cases hba
  | eq => rfl
  | gt =>
    rw [h] at hab
    cases hab

theorem pairwise_sort [TransCmp cmp] (items : List β) :
    (items.insertionSort fun a b => (cmp a b).isLE).Pairwise fun a b => (cmp a b).isLE := by
  have : Std.Total fun a b => (cmp a b).isLE = true := ⟨isLE_total cmp⟩
  have : IsTrans β fun a b => (cmp a b).isLE = true := ⟨fun _ _ _ => TransCmp.isLE_trans⟩
  exact List.pairwise_insertionSort _ items

/-- Two lists with the same items are sorted alike, where the comparator tells items apart. -/
theorem sort_eq_of_perm [TransCmp cmp] {items items' : List β} (hperm : items.Perm items')
    (hapart : ∀ a ∈ items, ∀ b ∈ items, cmp a b = .eq → a = b) :
    (items.insertionSort fun a b => (cmp a b).isLE) =
      items'.insertionSort fun a b => (cmp a b).isLE := by
  refine List.Perm.eq_of_pairwise ?_ (pairwise_sort cmp items) (pairwise_sort cmp items') ?_
  · intro a b ha hb hab hba
    refine hapart a ((List.mem_insertionSort _).mp ha) b ?_ (eq_of_isLE_of_isLE cmp hab hba)
    exact hperm.mem_iff.mpr ((List.mem_insertionSort _).mp hb)
  · exact (List.perm_insertionSort _ items).trans
      (hperm.trans (List.perm_insertionSort _ items').symm)

/-- A sort that looks at the images only sorts the images. -/
theorem map_sort (f : α → β) (items : List α) :
    (items.insertionSort fun a b => (cmp (f a) (f b)).isLE).map f =
      (items.map f).insertionSort fun a b => (cmp a b).isLE :=
  List.map_insertionSort _ _ f items fun _ _ _ _ => Iff.rfl

/-- Sorting puts what comes first in a weaker order first, when the comparison keeps that
order. -/
theorem pairwise_insertionSort_of_cases {r R : α → α → Prop} [DecidableRel r]
    (hpos : ∀ x y, r x y → R x y) (hneg : ∀ x y, ¬ r x y → R y x)
    (htrans : ∀ x y z, R x y → R y z → R x z) (l : List α) : (l.insertionSort r).Pairwise R := by
  have hinsert : ∀ (x : α) (l : List α), l.Pairwise R → (l.orderedInsert r x).Pairwise R := by
    intro x l hl
    induction l with
    | nil => exact List.pairwise_singleton R x
    | cons y l ih =>
      have hy := List.pairwise_cons.mp hl
      by_cases h : r x y
      · rw [List.orderedInsert_cons_of_le r l h]
        refine List.pairwise_cons.mpr ⟨?_, hl⟩
        intro z hz
        rcases List.mem_cons.mp hz with rfl | hz
        · exact hpos x z h
        · exact htrans x y z (hpos x y h) (hy.1 z hz)
      · rw [List.orderedInsert_of_not_le r l h]
        refine List.pairwise_cons.mpr ⟨?_, ih hy.2⟩
        intro z hz
        rcases (List.mem_orderedInsert r).mp hz with rfl | hz
        · exact hneg z y h
        · exact hy.1 z hz
  induction l with
  | nil => exact List.Pairwise.nil
  | cons x l ih => exact hinsert x _ ih

end CartoLive.Lib.Comparators
