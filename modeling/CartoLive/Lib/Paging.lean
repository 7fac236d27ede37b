import CartoLive.Lib.Windows
import Mathlib.Data.List.Nodup
import Mathlib.Order.Defs.Unbundled

/-!
# Listings that are read page by page

A listing is read in pages: a request carries a cursor, and the answer carries
some entries and the cursor to go on with, or none at the end. `Answers` says
when one answer is right, and `follow_spec` that right answers add up to the
whole listing, whoever gives each of them.

The entries come from rows in a strict order of their positions. A page is put
together from stretches of rows; `Leads` says what has been listed on the way
from one cursor to another.
-/

namespace CartoLive.Lib

universe u v w

/-! ## Cursors -/

section Cursors

variable {γ : Type u} {α : Type v} (before : γ → γ → Prop) (key : α → γ)

/-- A position beyond a cursor; without a cursor every position is. -/
def Beyond (c : Option γ) (k : γ) : Prop := ∀ a ∈ c, before a k

instance [DecidableRel before] (c : Option γ) (k : γ) : Decidable (Beyond before c k) :=
  match c with
  | none => .isTrue fun _ h => by cases h
  | some a => decidable_of_iff (before a k) ⟨fun h b hb => by cases hb; exact h, fun h => h a rfl⟩

variable {before key}

theorem Beyond.trans [IsTrans γ before] {c : Option γ} {k k' : γ} (h : Beyond before c k)
    (hk : before k k') : Beyond before c k' :=
  fun a ha => IsTrans.trans _ _ _ (h a ha) hk

/-- The cursor behind the rows that have been read. -/
def cursorAfter (key : α → γ) (c : Option γ) (read : List α) : Option γ :=
  (read.getLast?.map key).or c

theorem cursorAfter_nil (c : Option γ) : cursorAfter key c [] = c := rfl

theorem cursorAfter_concat (c : Option γ) (read : List α) (row : α) :
    cursorAfter key c (read ++ [row]) = some (key row) := by
  simp [cursorAfter]

theorem cursorAfter_cons (c : Option γ) (row : α) (read : List α) :
    cursorAfter key c (row :: read) = cursorAfter key (some (key row)) read := by
  simp only [cursorAfter, List.getLast?_cons]
  cases read.getLast? <;> rfl

variable [DecidableRel before]

/-- The rows beyond a cursor. -/
def rowsBeyond (before : γ → γ → Prop) [DecidableRel before] (key : α → γ) (c : Option γ)
    (rows : List α) : List α :=
  rows.filter fun row => Beyond before c (key row)

theorem rowsBeyond_none (rows : List α) : rowsBeyond before key none rows = rows :=
  List.filter_eq_self.mpr fun _ _ => decide_eq_true fun _ h => by cases h

theorem rowsBeyond_map {ε : Type w} {key' : ε → γ} {g : ε → α} {rows : List ε}
    (h : ∀ row ∈ rows, key (g row) = key' row) (c : Option γ) :
    rowsBeyond before key c (rows.map g) = (rowsBeyond before key' c rows).map g := by
  unfold rowsBeyond
  rw [List.filter_map]
  congr 1
  refine List.filter_congr fun row hrow => ?_
  show decide (Beyond before c (key (g row))) = _
  rw [h row hrow]

theorem rowsBeyond_filter (p : α → Bool) (c : Option γ) (rows : List α) :
    rowsBeyond before key c (rows.filter p) = (rowsBeyond before key c rows).filter p := by
  unfold rowsBeyond
  rw [List.filter_filter, List.filter_filter]
  exact List.filter_congr fun row _ => Bool.and_comm ..

/-- Behind the rows that have been read come the others. -/
theorem rowsBeyond_cursorAfter [IsStrictOrder γ before] {rows : List α}
    (hsorted : rows.Pairwise fun a b => before (key a) (key b)) {c : Option γ}
    {read more : List α} (h : rowsBeyond before key c rows = read ++ more) :
    rowsBeyond before key (cursorAfter key c read) rows = more := by
  rcases List.eq_nil_or_concat read with rfl | ⟨init, row, rfl⟩
  · exact h
  rw [List.concat_eq_append] at h ⊢
  have hrow : row ∈ rowsBeyond before key c rows := by simp [h]
  have hfilter : rowsBeyond before key (some (key row)) rows =
      (rowsBeyond before key c rows).filter fun y => before (key row) (key y) := by
    unfold rowsBeyond
    rw [List.filter_filter]
    refine List.filter_congr fun y _ => Bool.eq_iff_iff.mpr ?_
    have hbeyond : Beyond before c (key row) := of_decide_eq_true (List.mem_filter.mp hrow).2
    rw [Bool.and_eq_true, decide_eq_true_eq, decide_eq_true_eq, decide_eq_true_eq]
    exact ⟨fun hlt => ⟨hlt _ rfl, hbeyond.trans (hlt _ rfl)⟩,
      fun hlt a ha => Option.mem_some_iff.mp ha ▸ hlt.1⟩
  have hall : ((init ++ [row]) ++ more).Pairwise fun a b => before (key a) (key b) :=
    h ▸ List.Pairwise.filter _ hsorted
  obtain ⟨hread, -, hcross⟩ := List.pairwise_append.mp hall
  obtain ⟨-, -, hinit⟩ := List.pairwise_append.mp hread
  rw [cursorAfter_concat, hfilter, h, List.filter_append]
  have hnone : (init ++ [row]).filter (fun y => before (key row) (key y)) = [] := by
    refine List.filter_eq_nil_iff.mpr fun y hy => ?_
    rw [decide_eq_true_eq]
    intro hlt
    rcases List.mem_append.mp hy with hy | hy
    · exact irrefl (r := before) (key row) (IsTrans.trans _ _ _ hlt (hinit y hy row (by simp)))
    · rw [List.mem_singleton.mp hy] at hlt
      exact irrefl (r := before) (key row) hlt
  rw [hnone, List.nil_append]
  exact List.filter_eq_self.mpr fun y hy => decide_eq_true (hcross row (by simp) y hy)

end Cursors

/-! ## Rows in order -/

section Sorted

variable {γ : Type u} {α : Type v} {before : γ → γ → Prop} {key : α → γ} {le : α → α → Prop}
  [DecidableRel le]

/-- Sorting rows with different positions puts them in a strict order. -/
theorem pairwise_sorted (htotal : ∀ a b, le a b ∨ le b a)
    (htrans : ∀ a b c, le a b → le b c → le a c)
    (hstrict : ∀ a b, le a b → key a ≠ key b → before (key a) (key b)) {rows : List α}
    (hnodup : (rows.map key).Nodup) :
    (rows.insertionSort le).Pairwise fun a b => before (key a) (key b) := by
  have : Std.Total le := ⟨htotal⟩
  have : IsTrans α le := ⟨htrans⟩
  have hdistinct : ((rows.insertionSort le).map key).Nodup :=
    ((List.perm_insertionSort le rows).map key).nodup_iff.mpr hnodup
  refine ((List.pairwise_insertionSort le rows).and (List.pairwise_map.mp hdistinct)).imp ?_
  exact fun h => hstrict _ _ h.1 h.2

omit [DecidableRel le] in
/-- Rows in a strict order are known by their members. -/
theorem eq_of_mem_iff [IsStrictOrder γ before] {rows rows' : List α}
    (h : rows.Pairwise fun a b => before (key a) (key b))
    (h' : rows'.Pairwise fun a b => before (key a) (key b)) (hmem : ∀ a, a ∈ rows ↔ a ∈ rows') :
    rows = rows' := by
  have hnodup : ∀ {l : List α}, (l.Pairwise fun a b => before (key a) (key b)) → l.Nodup := by
    refine fun hl => hl.imp fun hlt heq => ?_
    rw [heq] at hlt
    exact irrefl (r := before) _ hlt
  refine ((List.perm_ext_iff_of_nodup (hnodup h) (hnodup h')).mpr hmem).eq_of_pairwise
    (fun a b _ _ hab hba => ?_) h h'
  exact absurd (IsTrans.trans _ _ _ hab hba) (irrefl (r := before) (key a))

/-- A query for the rows beyond a cursor. -/
theorem insertionSort_filter_beyond [DecidableRel before] (htotal : ∀ a b, le a b ∨ le b a)
    (htrans : ∀ a b c, le a b → le b c → le a c) (p : α → Prop) [DecidablePred p]
    (c : Option γ) (rows : List α) :
    (rows.filter fun row => p row ∧ Beyond before c (key row)).insertionSort le =
      rowsBeyond before key c ((rows.filter fun row => p row).insertionSort le) := by
  unfold rowsBeyond
  rw [filter_insertionSort htotal htrans, List.filter_filter]
  congr 1
  refine List.filter_congr fun row _ => Bool.eq_iff_iff.mpr ?_
  simp only [Bool.and_eq_true, decide_eq_true_eq]
  exact And.comm

end Sorted

/-! ## Listings -/

section Listings

variable {γ : Type u} {β : Type v} {ι : Type w} (before : γ → γ → Prop) (positions : List γ)
  (listing : Option γ → List β)

/-- The way from one cursor to another lists some entries: what is to be listed
beyond the first are they and what is to be listed beyond the second. -/
structure Leads (c : Option γ) (found : List β) (d : Option γ) : Prop where
  listed : listing c = found ++ listing d
  moves : d = c ∨ ∃ k ∈ positions, d = some k ∧ Beyond before c k

/-- A right answer: it has all there is to list, or it moves on. -/
def Answers (c : Option γ) (found : List β) (next : Option γ) : Prop :=
  match next with
  | none => listing c = found
  | some k => k ∈ positions ∧ Beyond before c k ∧ listing c = found ++ listing (some k)

variable {before positions listing}

theorem Leads.refl (c : Option γ) : Leads before positions listing c [] c :=
  ⟨rfl, Or.inl rfl⟩

theorem Leads.trans [IsTrans γ before] {c d e : Option γ} {found more : List β}
    (h : Leads before positions listing c found d)
    (h' : Leads before positions listing d more e) :
    Leads before positions listing c (found ++ more) e where
  listed := by rw [h.listed, h'.listed, List.append_assoc]
  moves := by
    rcases h'.moves with rfl | ⟨k, hk, rfl, hbeyond⟩
    · exact h.moves
    · refine Or.inr ⟨k, hk, rfl, ?_⟩
      rcases h.moves with rfl | ⟨j, -, rfl, hfirst⟩
      · exact hbeyond
      · exact hfirst.trans (hbeyond j rfl)

/-- A cursor that has been left does not come back. -/
theorem Leads.ne_trans [IsStrictOrder γ before] {c d e : Option γ} {found more : List β}
    (h : Leads before positions listing c found d)
    (h' : Leads before positions listing d more e) (hne : d ≠ c) : e ≠ c := by
  rcases h.moves with hsame | ⟨j, -, rfl, hfirst⟩
  · exact absurd hsame hne
  rcases h'.moves with rfl | ⟨k, -, rfl, hbeyond⟩
  · exact hne
  · rintro rfl
    exact irrefl (r := before) k (hfirst.trans (hbeyond j rfl) k rfl)

/-- A way that has left its cursor is an answer. -/
theorem Leads.answers {c d : Option γ} {found : List β}
    (h : Leads before positions listing c found d) (hne : d ≠ c) :
    Answers before positions listing c found d := by
  rcases h.moves with hsame | ⟨k, hk, rfl, hbeyond⟩
  · exact absurd hsame hne
  · exact ⟨hk, hbeyond, h.listed⟩

theorem Answers.mono {positions' : List γ} {c next : Option γ} {found : List β}
    (h : Answers before positions listing c found next) (hsub : positions ⊆ positions') :
    Answers before positions' listing c found next := by
  cases next with
  | none => exact h
  | some k => exact ⟨hsub h.1, h.2⟩

/-- The entries of an answer may be viewed in another way. -/
theorem Answers.map {c next : Option γ} {found : List β}
    (h : Answers before positions listing c found next) (view : β → ι) :
    Answers before positions (fun c => (listing c).map view) c (found.map view) next := by
  cases next with
  | none => exact congrArg (List.map view) h
  | some k =>
    refine ⟨h.1, h.2.1, ?_⟩
    dsimp only
    rw [h.2.2, List.map_append]

/-- Follow the cursors of the answers: `request i c` answers the cursor `c` as
the `i`-th request. -/
def follow (request : Nat → Option γ → Option (List ι × Option γ)) :
    Nat → Nat → Option γ → Option (List (List ι))
  | 0, _, _ => none
  | fuel + 1, i, c =>
    match request i c with
    | none => none
    | some (page, none) => some [page]
    | some (page, some k) => (follow request fuel (i + 1) (some k)).map (page :: ·)

/-- **Right answers add up.** If every request is answered rightly, with a page that
is related to what it should list, the cursors come to an end, and the pages are
related to parts that make up the listing. -/
theorem follow_related [IsStrictOrder γ before] [DecidableRel before]
    (Shows : List β → List ι → Prop)
    (request : Nat → Option γ → Option (List ι × Option γ))
    (h : ∀ i c, ∃ page next found, request i c = some (page, next) ∧ Shows found page ∧
      Answers before positions listing c found next) :
    ∀ fuel i c, (positions.filter fun k => Beyond before c k).length < fuel →
      ∃ pages parts, follow request fuel i c = some pages ∧ List.Forall₂ Shows parts pages ∧
        parts.flatten = listing c := by
  intro fuel
  induction fuel with
  | zero => exact fun i c hfuel => absurd hfuel (Nat.not_lt_zero _)
  | succ fuel ih =>
    intro i c hfuel
    obtain ⟨page, next, found, hrequest, hshows, hanswer⟩ := h i c
    cases next with
    | none =>
      refine ⟨[page], [found], by simp [follow, hrequest], .cons hshows .nil, ?_⟩
      simpa using hanswer.symm
    | some k =>
      obtain ⟨hk, hbeyond, hlisted⟩ := hanswer
      -- one position fewer is left
      have hless : (positions.filter fun j => Beyond before (some k) j).length <
          (positions.filter fun j => Beyond before c j).length := by
        have hfilter : (positions.filter fun j => Beyond before (some k) j) =
            (positions.filter fun j => Beyond before c j).filter
              fun j => Beyond before (some k) j := by
          rw [List.filter_filter]
          refine List.filter_congr fun j _ => Bool.eq_iff_iff.mpr ?_
          simp only [Bool.and_eq_true, decide_eq_true_eq]
          exact ⟨fun hj => ⟨hj, hbeyond.trans (hj k rfl)⟩, fun hj => hj.1⟩
        rw [hfilter, List.length_filter_lt_length_iff_exists]
        refine ⟨k, List.mem_filter.mpr ⟨hk, decide_eq_true hbeyond⟩, ?_⟩
        rw [decide_eq_true_eq]
        exact fun hself => irrefl (r := before) k (hself k rfl)
      obtain ⟨pages, parts, hpages, hrelated, hrest⟩ := ih (i + 1) (some k) (by omega)
      refine ⟨page :: pages, found :: parts, by simp [follow, hrequest, hpages],
        .cons hshows hrelated, ?_⟩
      rw [List.flatten_cons, hrest, hlisted]

/-- Where the pages show their entries in another way, they are the listing. -/
theorem follow_spec [IsStrictOrder γ before] [DecidableRel before] (view : ι → β)
    (request : Nat → Option γ → Option (List ι × Option γ))
    (h : ∀ i c, ∃ page next, request i c = some (page, next) ∧
      Answers before positions listing c (page.map view) next) :
    ∀ fuel i c, (positions.filter fun k => Beyond before c k).length < fuel →
      ∃ pages, follow request fuel i c = some pages ∧
        pages.flatten.map view = listing c := by
  intro fuel i c hfuel
  obtain ⟨pages, parts, hpages, hrelated, hlisted⟩ :=
    follow_related (fun found page => page.map view = found) request
      (fun i c => by
        obtain ⟨page, next, hrequest, hanswer⟩ := h i c
        exact ⟨page, next, page.map view, hrequest, rfl, hanswer⟩) fuel i c hfuel
  refine ⟨pages, hpages, ?_⟩
  rw [← hlisted]
  clear hpages hlisted
  induction hrelated with
  | nil => rfl
  | cons hview _ ih => rw [List.flatten_cons, List.flatten_cons, List.map_append, hview, ih]

end Listings

/-! ## Listings of rows -/

section Rows

variable {γ : Type u} {α : Type v} {β : Type w} {before : γ → γ → Prop} [DecidableRel before]
  [IsStrictOrder γ before] {key : α → γ} {rows : List α}

/-- The rows that have been read lead to the cursor behind them. -/
theorem leads_of_read (hsorted : rows.Pairwise fun a b => before (key a) (key b))
    (entry : α → Option β) {c : Option γ} {read more : List α}
    (h : rowsBeyond before key c rows = read ++ more) :
    Leads before (rows.map key) (fun c => (rowsBeyond before key c rows).filterMap entry) c
      (read.filterMap entry) (cursorAfter key c read) where
  listed := by
    rw [rowsBeyond_cursorAfter hsorted h, h, List.filterMap_append]
  moves := by
    rcases List.eq_nil_or_concat read with rfl | ⟨init, row, rfl⟩
    · exact Or.inl rfl
    rw [List.concat_eq_append] at h ⊢
    obtain ⟨hmem, hbeyond⟩ := List.mem_filter.mp (show row ∈ rowsBeyond before key c rows by simp [h])
    exact Or.inr ⟨key row, List.mem_map_of_mem hmem, cursorAfter_concat .., of_decide_eq_true hbeyond⟩

/-- Rows that have been read leave the cursor. -/
theorem cursorAfter_ne {c : Option γ} {read more : List α}
    (h : rowsBeyond before key c rows = read ++ more) (hread : read ≠ []) :
    cursorAfter key c read ≠ c := by
  rcases List.eq_nil_or_concat read with rfl | ⟨init, row, rfl⟩
  · exact absurd rfl hread
  rw [List.concat_eq_append] at h ⊢
  obtain ⟨-, hbeyond⟩ := List.mem_filter.mp (show row ∈ rowsBeyond before key c rows by simp [h])
  rw [cursorAfter_concat]
  rintro rfl
  exact irrefl (r := before) (key row) (of_decide_eq_true hbeyond (key row) rfl)

end Rows

/-! ## Loops -/

section Loops

variable {σ : Type u}

/-- A loop that goes on as long as `more` holds and `body` does not end it. -/
def runLoop (more : σ → Bool) (body : σ → σ × Bool) : Nat → σ → Option σ
  | 0, _ => none
  | fuel + 1, s =>
    if more s then
      match body s with
      | (s', true) => runLoop more body fuel s'
      | (s', false) => some s'
    else some s

/-- The rule for loops: a pass keeps the invariant with less left to do, or ends
as it should. -/
theorem runLoop_spec {more : σ → Bool} {body : σ → σ × Bool} {Inv Done : σ → Prop}
    (left : σ → Nat)
    (hpass : ∀ s, Inv s → more s = true →
      ((body s).2 = true ∧ Inv (body s).1 ∧ left (body s).1 < left s) ∨
        ((body s).2 = false ∧ Done (body s).1))
    (hend : ∀ s, Inv s → more s = false → Done s) :
    ∀ fuel s, Inv s → left s < fuel → ∃ s', runLoop more body fuel s = some s' ∧ Done s' := by
  intro fuel
  induction fuel with
  | zero => exact fun s _ hfuel => absurd hfuel (Nat.not_lt_zero _)
  | succ fuel ih =>
    intro s hs hfuel
    unfold runLoop
    cases hmore : more s with
    | false => exact ⟨s, rfl, hend s hs hmore⟩
    | true =>
      rw [if_pos rfl]
      have hcases := hpass s hs hmore
      generalize body s = result at hcases
      obtain ⟨s', go⟩ := result
      rcases hcases with ⟨rfl, hinv, hless⟩ | ⟨rfl, hdone⟩
      · exact ih s' hinv (by dsimp only at hless; omega)
      · exact ⟨s', rfl, hdone⟩

end Loops

end CartoLive.Lib

/-!
## Pages that read in batches

A page has room for `limit` entries. It reads rows in batches, whose size depends
on the room that is left, and ends when it is full or has read `cap` rows; the
next page goes on behind the last batch. `batches` are the batches that the pages
read from some rows on, each with the room there is for it.

What a batch holds beyond its room is on no page (`shown_eq_iff`).
-/

namespace CartoLive.Lib

universe u v

section Batches

variable {α : Type u} {β : Type v} (keep : α → Option β) (size : Nat → Nat) (limit cap : Nat)

/-- A page that is over is followed by the next one. -/
def pageStart (room scanned : Nat) : Nat × Nat :=
  if room = 0 ∨ cap ≤ scanned then (limit, 0) else (room, scanned)

/-- The batches that are read from some rows on, by a page with room for `room`
entries that has read `scanned` rows and the pages after it. -/
def batches : Nat → Nat → List α → List (Nat × List α)
  | _, _, [] => []
  | room, scanned, row :: rows =>
    let start := pageStart limit cap room scanned
    let batch := row :: rows.take (size start.1 - 1)
    (start.1, batch) ::
      batches (start.1 - (batch.filterMap keep).length) (start.2 + batch.length)
        (rows.drop (size start.1 - 1))
termination_by _ _ rows => rows.length

/-- What the pages show of some batches. -/
def shown (bs : List (Nat × List α)) : List β :=
  bs.flatMap fun b => (b.2.filterMap keep).take b.1

/-- The first batch are the first rows. -/
theorem batches_eq (room scanned : Nat) {rows : List α} (hne : rows ≠ [])
    (hsize : 0 < size (pageStart limit cap room scanned).1) :
    let start := pageStart limit cap room scanned
    let batch := rows.take (size start.1)
    batches keep size limit cap room scanned rows =
      (start.1, batch) ::
        batches keep size limit cap (start.1 - (batch.filterMap keep).length)
          (start.2 + batch.length) (rows.drop (size start.1)) := by
  cases rows with
  | nil => exact absurd rfl hne
  | cons row rows =>
    obtain ⟨n, hn⟩ : ∃ n, size (pageStart limit cap room scanned).1 = n + 1 :=
      ⟨_, (Nat.succ_pred_eq_of_pos hsize).symm⟩
    rw [batches]
    dsimp only
    rw [hn, Nat.add_sub_cancel, List.take_succ_cons, List.drop_succ_cons]

/-- The pages show of the first batch what there is room for. -/
theorem shown_batches (room scanned : Nat) (rows : List α)
    (hsize : 0 < size (pageStart limit cap room scanned).1) :
    let start := pageStart limit cap room scanned
    let kept := (rows.take (size start.1)).filterMap keep
    shown keep (batches keep size limit cap room scanned rows) =
      kept.take start.1 ++
        shown keep (batches keep size limit cap (start.1 - kept.length)
          (start.2 + (rows.take (size start.1)).length) (rows.drop (size start.1))) := by
  by_cases hne : rows = []
  · subst hne
    simp [batches, shown]
  · intro start kept
    rw [batches_eq keep size limit cap room scanned hne hsize]
    rfl

variable {size limit cap}

/-- A page that is over leaves all to the next one. -/
theorem batches_of_pageStart {room scanned : Nat} (h : room = 0 ∨ cap ≤ scanned)
    (hlimit : 0 < limit) (hcap : 0 < cap) (rows : List α) :
    batches keep size limit cap room scanned rows = batches keep size limit cap limit 0 rows := by
  cases rows with
  | nil => rw [batches, batches]
  | cons row rows =>
    have hstart : pageStart limit cap room scanned = pageStart limit cap limit 0 := by
      unfold pageStart
      rw [if_pos h, if_neg (by omega)]
    rw [batches, batches, hstart]

theorem flatMap_batches (room scanned : Nat) (rows : List α) :
    (batches keep size limit cap room scanned rows).flatMap Prod.snd = rows := by
  induction room, scanned, rows using batches.induct keep size limit cap with
  | case1 room scanned => rw [batches]; rfl
  | case2 room scanned row rows start batch ih =>
    rw [batches, List.flatMap_cons]
    dsimp only
    rw [ih, List.cons_append, List.take_append_drop]

theorem length_shown_le (bs : List (Nat × List α)) :
    (shown keep bs).length ≤ ((bs.flatMap Prod.snd).filterMap keep).length := by
  induction bs with
  | nil => exact le_rfl
  | cons b bs ih =>
    unfold shown at ih ⊢
    rw [List.flatMap_cons, List.flatMap_cons, List.filterMap_append, List.length_append,
      List.length_append, List.length_take]
    omega

/-- The pages show all that is kept if and only if no batch holds more of it than
there is room for. -/
theorem shown_eq_iff (bs : List (Nat × List α)) :
    shown keep bs = (bs.flatMap Prod.snd).filterMap keep ↔
      ∀ b ∈ bs, (b.2.filterMap keep).length ≤ b.1 := by
  induction bs with
  | nil => exact iff_of_true rfl fun b hb => by cases hb
  | cons b bs ih =>
    have hcons : shown keep (b :: bs) = (b.2.filterMap keep).take b.1 ++ shown keep bs := rfl
    rw [hcons, List.flatMap_cons, List.filterMap_append, List.forall_mem_cons, ← ih]
    constructor
    · intro h
      have hle := length_shown_le keep bs
      have hlength := congrArg List.length h
      rw [List.length_append, List.length_append, List.length_take] at hlength
      have hroom : (b.2.filterMap keep).length ≤ b.1 := by omega
      rw [List.take_of_length_le hroom] at h
      exact ⟨hroom, List.append_cancel_left h⟩
    · rintro ⟨hroom, hrest⟩
      rw [List.take_of_length_le hroom, hrest]

end Batches

end CartoLive.Lib
