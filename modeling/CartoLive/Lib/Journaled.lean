import Mathlib.Data.List.Basic
import Mathlib.Data.List.Induction

/-!
# A bounded list with a journal

A list of keyed items, newest first and cut to a limit, and a journal that says
when each key was last updated. An update goes in front. The keys of the items
that it pushes out leave the journal, also when a newer item of such a key is
still in the list; a list without repeated keys avoids that by dropping the older
items of the updated key first.

`journal_run` says exactly which keys a run of updates leaves in the journal, and
`run_unique` that nothing goes wrong where keys are not repeated.
-/

namespace CartoLive.Lib

universe u v

structure Journaled (α : Type u) (κ : Type v) where
  items : List α
  journal : κ → Nat

namespace Journaled

variable {α : Type u} {κ : Type v} [DecidableEq κ]

/-- A journal without the evicted keys and with a new entry. -/
def record (journal : κ → Nat) (evicted : List κ) (k : κ) (time : Nat) : κ → Nat :=
  fun key => if key = k then time else if key ∈ evicted then 0 else journal key

variable (key : α → κ) (limit : Nat) (unique : Bool)

/-- The list with an update in front, before it is cut. -/
def next (items : List α) (item : α) : List α :=
  item :: if unique = true then items.filter fun x => key x ≠ key item else items

def push (l : Journaled α κ) (item : α) (time : Nat) : Journaled α κ :=
  { items := (next key unique l.items item).take limit
    journal := record l.journal (((next key unique l.items item).drop limit).map key) (key item)
      time }

/-- A run of updates with their times. -/
def run (l : Journaled α κ) (us : List (α × Nat)) : Journaled α κ :=
  us.foldl (fun l u => l.push key limit unique u.1 u.2) l

variable {key limit unique} {l : Journaled α κ} {us : List (α × Nat)}

theorem run_concat (item : α) (time : Nat) :
    l.run key limit unique (us ++ [(item, time)]) =
      (l.run key limit unique us).push key limit unique item time := by
  simp [run, List.foldl_append]

/-- The updated items, newest first. -/
def updated (us : List (α × Nat)) : List α := (us.map Prod.fst).reverse

@[simp] theorem updated_concat (item : α) (time : Nat) :
    updated (us ++ [(item, time)]) = item :: updated us := by
  simp [updated]

/-- Where keys may repeat, a run puts its updates in front and cuts. -/
theorem items_run (hl : l.items.length ≤ limit) (us : List (α × Nat)) :
    (l.run key limit false us).items = (updated us ++ l.items).take limit := by
  induction us using List.reverseRecOn with
  | nil => simp [run, updated, List.take_of_length_le hl]
  | append_singleton us u ih =>
    obtain ⟨item, time⟩ := u
    rw [run_concat, updated_concat]
    show List.take limit (item :: (l.run key limit false us).items) = _
    rw [ih]
    cases limit with
    | zero => rfl
    | succ n => simp [List.take_take]

/-! ## The journal where keys may repeat -/

theorem mem_drop_take {m n : Nat} {t : List α} {y : α} :
    y ∈ (t.take n).drop m ↔ ∃ j, m ≤ j ∧ j < n ∧ t[j]? = some y := by
  rw [List.mem_iff_getElem?]
  simp only [List.getElem?_drop, List.getElem?_take]
  constructor
  · rintro ⟨i, hi⟩
    by_cases hlt : m + i < n
    · rw [if_pos hlt] at hi
      exact ⟨m + i, Nat.le_add_right m i, hlt, hi⟩
    · rw [if_neg hlt] at hi
      cases hi
  · rintro ⟨j, hm, hn, hj⟩
    refine ⟨j - m, ?_⟩
    rw [show m + (j - m) = j by omega, if_pos hn]
    exact hj

omit [DecidableEq κ] in
/-- What an update pushes out of a list with other keys in front: the item of
`tail` that stood at the end. -/
theorem mem_evicted {item : α} {later tail : List α} {k : κ} (hitem : key item ≠ k)
    (hlater : ∀ y ∈ later, key y ≠ k) :
    k ∈ ((item :: (later ++ tail).take limit).drop limit).map key ↔
      ∃ j, j + later.length + 1 = limit ∧ ∃ y, tail[j]? = some y ∧ key y = k := by
  constructor
  · intro h
    obtain ⟨y, hy, hk⟩ := List.mem_map.mp h
    obtain ⟨i, hi⟩ := List.mem_iff_getElem?.mp hy
    rw [List.getElem?_drop] at hi
    cases limit with
    | zero =>
      cases i with
      | zero =>
        cases hi
        exact absurd hk hitem
      | succ i => simp at hi
    | succ n =>
      rw [show n + 1 + i = (n + i) + 1 by omega, List.getElem?_cons_succ,
        List.getElem?_take] at hi
      by_cases hlt : n + i < n + 1
      · rw [if_pos hlt] at hi
        by_cases hin : n + i < later.length
        · rw [List.getElem?_append_left hin] at hi
          exact absurd hk (hlater y (List.mem_of_getElem? hi))
        · rw [List.getElem?_append_right (by omega)] at hi
          exact ⟨n + i - later.length, by omega, y, hi, hk⟩
      · rw [if_neg hlt] at hi
        cases hi
  · rintro ⟨j, rfl, y, hy, hk⟩
    refine List.mem_map.mpr ⟨y, List.mem_iff_getElem?.mpr ⟨0, ?_⟩, hk⟩
    rw [List.getElem?_drop, show j + later.length + 1 + 0 = (j + later.length) + 1 by omega,
      List.getElem?_cons_succ, List.getElem?_take, if_pos (by omega),
      List.getElem?_append_right (by omega)]
    rw [show j + later.length - later.length = j by omega]
    exact hy

/-- A key that no update has keeps an old entry. -/
theorem journal_run_le {g : Nat} (hl : ∀ k, l.journal k ≤ g) {k : κ}
    (hnone : ∀ y ∈ updated us, key y ≠ k) : (l.run key limit unique us).journal k ≤ g := by
  induction us using List.reverseRecOn with
  | nil => exact hl k
  | append_singleton us u ih =>
    obtain ⟨item, time⟩ := u
    rw [updated_concat] at hnone
    rw [run_concat]
    show record _ _ _ _ k ≤ g
    unfold record
    rw [if_neg (Ne.symm (hnone item (by simp)))]
    split
    · exact Nat.zero_le g
    · exact ih fun y hy => hnone y (List.mem_cons_of_mem _ hy)

/-- **The journal after a run.** Let `v` be the latest update of its key. The key
is in the journal when no item of the key is among those that the later updates
push out of the list. -/
theorem journal_run {g : Nat} (hl : l.items.length ≤ limit) (hus : ∀ u ∈ us, g < u.2)
    {later rest : List α} {v : α} (hupdated : updated us = later ++ v :: rest)
    (hlater : ∀ y ∈ later, key y ≠ key v) :
    g < (l.run key limit false us).journal (key v) ↔
      ∀ y ∈ ((v :: rest ++ l.items).take limit).drop (limit - later.length), key y ≠ key v := by
  induction later generalizing us with
  | nil =>
    obtain rfl | ⟨us, ⟨item, time⟩, rfl⟩ := us.eq_nil_or_concat'
    · cases hupdated
    · rw [updated_concat] at hupdated
      cases hupdated
      rw [run_concat]
      show g < record _ _ _ _ (key v) ↔ _
      rw [record, if_pos rfl]
      refine iff_of_true (hus (v, time) (by simp)) fun y hy => ?_
      obtain ⟨j, hge, hlt, -⟩ := mem_drop_take.mp hy
      simp at hge
      omega
  | cons a later ih =>
    obtain rfl | ⟨us, ⟨item, time⟩, rfl⟩ := us.eq_nil_or_concat'
    · cases hupdated
    · rw [updated_concat] at hupdated
      obtain ⟨rfl, hrest⟩ := List.cons.inj hupdated
      have hrest : updated us = later ++ v :: rest := hrest
      have hne : key item ≠ key v := hlater item (by simp)
      have hlater' : ∀ y ∈ later, key y ≠ key v := fun y hy =>
        hlater y (List.mem_cons_of_mem _ hy)
      have hih := ih (fun u hu => hus u (List.mem_append_left _ hu)) hrest hlater'
      rw [run_concat]
      show g < record _ (((item :: (l.run key limit false us).items).drop limit).map key) _ _
        (key v) ↔ _
      rw [items_run hl, hrest, record, if_neg (Ne.symm hne), List.append_assoc]
      -- the update pushes out the item that stood at the end of the list
      by_cases hout : key v ∈ ((item :: (later ++ (v :: rest ++ l.items)).take limit).drop
          limit).map key
      · rw [if_pos hout]
        obtain ⟨j, hj, y, hy, hk⟩ := (mem_evicted hne hlater').mp hout
        refine iff_of_false (Nat.not_lt_zero g) fun hall => hall y ?_ hk
        exact mem_drop_take.mpr ⟨j, by simp; omega, by omega, hy⟩
      · rw [if_neg hout, hih]
        have hkept := fun h => hout ((mem_evicted hne hlater').mpr h)
        constructor
        · intro hall y hy hk
          obtain ⟨j, hge, hlt, hj⟩ := mem_drop_take.mp hy
          simp only [List.length_cons] at hge
          by_cases hold : limit - later.length ≤ j
          · exact hall y (mem_drop_take.mpr ⟨j, hold, hlt, hj⟩) hk
          · exact hkept ⟨j, by omega, y, hj, hk⟩
        · intro hall y hy hk
          obtain ⟨j, hge, hlt, hj⟩ := mem_drop_take.mp hy
          exact hall y (mem_drop_take.mpr ⟨j, by simp; omega, hlt, hj⟩) hk

/-! ## The journal where keys do not repeat -/

/-- Where keys do not repeat, an updated key that is in the list is there with
its latest update only, and in the journal. -/
theorem run_unique {g : Nat} (hus : ∀ u ∈ us, g < u.2) {later rest : List α} {v : α}
    (hupdated : updated us = later ++ v :: rest) (hlater : ∀ y ∈ later, key y ≠ key v) :
    ((l.run key limit true us).items.filter fun x => key x = key v) = [] ∨
      ((l.run key limit true us).items.filter fun x => key x = key v) = [v] ∧
        g < (l.run key limit true us).journal (key v) := by
  induction later generalizing us with
  | nil =>
    obtain rfl | ⟨us, ⟨item, time⟩, rfl⟩ := us.eq_nil_or_concat'
    · cases hupdated
    · rw [updated_concat] at hupdated
      cases hupdated
      rw [run_concat]
      cases limit with
      | zero => exact Or.inl (by simp [push])
      | succ n =>
        refine Or.inr ⟨?_, ?_⟩
        · simp only [push, next, if_true, List.take_succ_cons, List.filter_cons_of_pos,
            decide_true]
          refine congrArg (List.cons v) (List.filter_eq_nil_iff.mpr fun x hx => ?_)
          have := (List.mem_filter.mp (List.mem_of_mem_take hx)).2
          simpa using this
        · show g < record _ _ _ _ (key v)
          rw [record, if_pos rfl]
          exact hus (v, time) (by simp)
  | cons a later ih =>
    obtain rfl | ⟨us, ⟨item, time⟩, rfl⟩ := us.eq_nil_or_concat'
    · cases hupdated
    · rw [updated_concat] at hupdated
      obtain ⟨rfl, hrest⟩ := List.cons.inj hupdated
      have hrest : updated us = later ++ v :: rest := hrest
      have hne : key item ≠ key v := hlater item (by simp)
      have hih := ih (fun u hu => hus u (List.mem_append_left _ hu)) hrest
        fun y hy => hlater y (List.mem_cons_of_mem _ hy)
      rw [run_concat]
      generalize l.run key limit true us = b at hih
      have hnext : ((next key true b.items item).filter fun x => key x = key v) =
          b.items.filter fun x => key x = key v := by
        simp only [next, if_true]
        rw [List.filter_cons_of_neg (by simpa using hne), List.filter_filter]
        refine List.filter_congr fun x _ => ?_
        by_cases hx : key x = key v
        · simp [hx, Ne.symm hne]
        · simp [hx]
      have hsplit := congrArg (List.filter fun x => decide (key x = key v))
        (List.take_append_drop limit (next key true b.items item))
      rw [List.filter_append, hnext] at hsplit
      show (((next key true b.items item).take limit).filter _) = [] ∨
        (((next key true b.items item).take limit).filter _) = [v] ∧
          g < record _ (((next key true b.items item).drop limit).map key) _ _ (key v)
      rcases hih with hgone | ⟨hin, htime⟩
      · rw [hgone] at hsplit
        exact Or.inl (List.append_eq_nil_iff.mp hsplit).1
      · rw [hin] at hsplit
        rcases List.append_eq_singleton_iff.mp hsplit with ⟨hnil, -⟩ | ⟨hv, hout⟩
        · exact Or.inl hnil
        · refine Or.inr ⟨hv, ?_⟩
          rw [record, if_neg (Ne.symm hne), if_neg]
          · exact htime
          · intro hmem
            obtain ⟨x, hx, hk⟩ := List.mem_map.mp hmem
            exact List.filter_eq_nil_iff.mp hout x hx (decide_eq_true hk)

end Journaled

end CartoLive.Lib
