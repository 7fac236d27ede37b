import Mathlib.Data.List.Basic

/-!
# Reads with a bounds check

A parser of fixed layouts reads elements and stretches of a list at positions it
has computed. Here a read outside of the list has no result, so that a parser
which is written with these reads and always has a result never leaves its input.
A pattern is found where it stands first, and blocks of one size are read back
from the list that they make.
-/

namespace CartoLive.Lib

variable {α β : Type*}

/-- The stretch from `first` up to `last`. -/
def slice (l : List α) (first last : Nat) : Option (List α) :=
  if first ≤ last ∧ last ≤ l.length then some ((l.take last).drop first) else none

theorem slice_eq_some {l : List α} {first last : Nat} (hle : first ≤ last)
    (hlen : last ≤ l.length) : slice l first last = some ((l.take last).drop first) :=
  if_pos ⟨hle, hlen⟩

/-- A stretch of a given length. -/
theorem slice_add {l : List α} {first size : Nat} (hlen : first + size ≤ l.length) :
    slice l first (first + size) = some ((l.drop first).take size) := by
  rw [slice_eq_some (Nat.le_add_right _ _) hlen, List.drop_take, Nat.add_sub_cancel_left]

/-- The rest of a list. -/
theorem slice_length {l : List α} {first : Nat} (hle : first ≤ l.length) :
    slice l first l.length = some (l.drop first) := by
  rw [slice_eq_some hle (Nat.le_refl _), List.take_length]

/-- A stretch between two others. -/
theorem slice_append (a b c : List α) {first last : Nat} (hfirst : first = a.length)
    (hlast : last = a.length + b.length) : slice (a ++ (b ++ c)) first last = some b := by
  subst hfirst hlast
  rw [slice_add (by simp only [List.length_append]; omega), List.drop_left, List.take_left]

/-- An element that is there. -/
theorem getElem?_getD (l : List α) (i : Nat) (fallback : α) (h : i < l.length) :
    l[i]? = some (l.getD i fallback) := by
  rw [List.getD_eq_getElem?_getD, List.getElem?_eq_getElem h, Option.getD_some]

/-- Stretches of the same length, one behind the other. -/
theorem flatMap_slices (l : List α) (size turns : Nat) :
    ((List.range turns).flatMap fun turn => (l.drop (turn * size)).take size) =
      l.take (turns * size) := by
  induction turns with
  | zero => rw [Nat.zero_mul]; rfl
  | succ turns ih =>
    rw [List.range_succ, List.flatMap_append, ih, List.flatMap_singleton, Nat.succ_mul,
      List.take_add]

/-- A read for every turn of a loop. -/
theorem mapM_range_eq_some {turns : Nat} {read : Nat → Option β} {f : Nat → β}
    (h : ∀ turn < turns, read turn = some (f turn)) :
    (List.range turns).mapM read = some ((List.range turns).map f) := by
  have hall : ∀ l : List Nat, (∀ turn ∈ l, turn < turns) → l.mapM read = some (l.map f) := by
    intro l hl
    induction l with
    | nil => rfl
    | cons turn l ih =>
      rw [List.mapM_cons, h turn (hl turn List.mem_cons_self),
        ih fun other hother => hl other (List.mem_cons_of_mem _ hother)]
      rfl
  exact hall _ fun turn hturn => List.mem_range.mp hturn

/-! ## Patterns and blocks -/

/-- The position of the first occurrence of a pattern. -/
def indexOf [DecidableEq α] (pattern : List α) : List α → Option Nat
  | [] => if pattern = [] then some 0 else none
  | a :: l => if pattern <+: a :: l then some 0 else (indexOf pattern l).map (· + 1)

section Patterns

variable [DecidableEq α]

/-- A pattern is found behind elements that are not its first. -/
theorem indexOf_append {a : α} {front : List α} (ha : a ∉ front) (pattern back : List α) :
    indexOf (a :: pattern) (front ++ (a :: pattern ++ back)) = some front.length := by
  induction front with
  | nil =>
    rw [List.nil_append, List.cons_append, indexOf, if_pos ⟨back, rfl⟩]
    rfl
  | cons b front ih =>
    have hne : ¬a :: pattern <+: b :: (front ++ (a :: pattern ++ back)) := fun h =>
      ha (List.mem_cons.mpr (.inl (List.cons_prefix_cons.mp h).1))
    rw [List.cons_append, indexOf, if_neg hne, ih fun h => ha (List.mem_cons_of_mem _ h)]
    rfl

/-- Where a pattern is found, it is. -/
theorem indexOf_split {pattern l : List α} {i : Nat} (h : indexOf pattern l = some i) :
    ∃ front back, l = front ++ (pattern ++ back) ∧ front.length = i := by
  induction l generalizing i with
  | nil =>
    rw [indexOf] at h
    split at h
    · rename_i hnil
      exact ⟨[], [], by rw [hnil]; rfl, Option.some.inj h⟩
    · cases h
  | cons a l ih =>
    rw [indexOf] at h
    split at h
    · rename_i hprefix
      obtain ⟨back, hback⟩ := hprefix
      exact ⟨[], back, hback.symm, Option.some.inj h⟩
    · obtain ⟨j, hj, rfl⟩ := Option.map_eq_some_iff.mp h
      obtain ⟨front, back, rfl, rfl⟩ := ih hj
      exact ⟨a :: front, back, rfl, rfl⟩

end Patterns

/-- Blocks of the same length have their lengths together. -/
theorem length_flatMap_range {blocks : Nat → List β} {size turns : Nat}
    (hsize : ∀ turn < turns, (blocks turn).length = size) :
    ((List.range turns).flatMap blocks).length = turns * size := by
  induction turns with
  | zero => rw [Nat.zero_mul]; rfl
  | succ turns ih =>
    rw [List.range_succ, List.flatMap_append, List.length_append, List.flatMap_singleton,
      ih fun turn hturn => hsize turn (by omega), hsize turns (by omega), Nat.succ_mul]

/-- A block is read at its place. -/
theorem slice_flatMap_range {blocks : Nat → List β} {size turns : Nat}
    (hsize : ∀ turn < turns, (blocks turn).length = size) {turn : Nat} (hturn : turn < turns) :
    slice ((List.range turns).flatMap blocks) (turn * size) (turn * size + size) =
      some (blocks turn) := by
  obtain ⟨more, rfl⟩ := Nat.exists_eq_add_of_lt hturn
  have hfront := length_flatMap_range fun earlier (hearlier : earlier < turn) =>
    hsize earlier (by omega)
  rw [Nat.add_assoc, List.range_add, List.range_succ_eq_map, List.map_cons, List.flatMap_append,
    List.flatMap_cons, Nat.add_zero]
  exact slice_append _ _ _ hfront.symm (by rw [hfront, hsize turn hturn])

end CartoLive.Lib
