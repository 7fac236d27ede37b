import Mathlib.Data.List.Nodup
import Mathlib.Data.List.Perm.Basic
import Mathlib.Data.Int.Order.Basic

/-!
# Lists in increasing order of a key

A log whose entries carry increasing numbers, and the stretch of it between two
cursors. Consecutive stretches add up (`between_append`), appending beyond a
stretch leaves it alone (`between_concat`), and a list in increasing order is
known by its members (`Ascending.eq_of_mem_iff`).
-/

namespace CartoLive.Lib

universe u v

variable {α : Type u} {key : α → Int}

/-- The keys increase along the list. -/
def Ascending (key : α → Int) (l : List α) : Prop := l.Pairwise fun a b => key a < key b

/-- The items with a key beyond `a` and up to `b`. -/
def between (key : α → Int) (a b : Int) (l : List α) : List α :=
  l.filter fun x => a < key x ∧ key x ≤ b

theorem mem_between {a b : Int} {l : List α} {x : α} :
    x ∈ between key a b l ↔ x ∈ l ∧ a < key x ∧ key x ≤ b := by
  simp [between]

theorem Ascending.nodup {l : List α} (h : Ascending key l) : l.Nodup :=
  h.imp fun hlt heq => by
    rw [heq] at hlt
    exact lt_irrefl _ hlt

theorem Ascending.between {l : List α} (h : Ascending key l) (a b : Int) :
    Ascending key (between key a b l) :=
  List.Pairwise.filter _ h

/-- One key belongs to one item. -/
theorem Ascending.eq_of_key_eq {l : List α} (h : Ascending key l) {x y : α} (hx : x ∈ l)
    (hy : y ∈ l) (heq : key x = key y) : x = y := by
  have hkeys : (l.map key).Nodup := List.pairwise_map.mpr (h.imp fun hlt => ne_of_lt hlt)
  exact List.inj_on_of_nodup_map hkeys hx hy heq

/-- Two lists in increasing order with the same members are the same. -/
theorem Ascending.eq_of_mem_iff {l l' : List α} (h : Ascending key l) (h' : Ascending key l')
    (hmem : ∀ x, x ∈ l ↔ x ∈ l') : l = l' := by
  have hperm : l.Perm l' := (List.perm_ext_iff_of_nodup h.nodup h'.nodup).mpr hmem
  refine hperm.eq_of_pairwise (fun a b _ _ hab hba => ?_) h h'
  exact absurd (lt_trans hab hba) (lt_irrefl _)

/-- The first stretch comes first. -/
theorem between_append {l : List α} (h : Ascending key l) {a b c : Int} (hab : a ≤ b)
    (hbc : b ≤ c) : between key a c l = between key a b l ++ between key b c l := by
  refine (h.between a c).eq_of_mem_iff ?_ fun x => ?_
  · refine List.pairwise_append.mpr ⟨h.between a b, h.between b c, fun x hx y hy => ?_⟩
    have := (mem_between.mp hx).2.2
    have := (mem_between.mp hy).2.1
    omega
  · rw [List.mem_append, mem_between, mem_between, mem_between]
    constructor
    · rintro ⟨hx, hax, hxc⟩
      rcases lt_or_ge b (key x) with hlt | hle
      · exact Or.inr ⟨hx, hlt, hxc⟩
      · exact Or.inl ⟨hx, hax, hle⟩
    · rintro (⟨hx, hax, hxb⟩ | ⟨hx, hbx, hxc⟩)
      · exact ⟨hx, hax, by omega⟩
      · exact ⟨hx, by omega, hxc⟩

/-- An item outside a stretch does not change it. -/
theorem between_concat {l : List α} {x : α} {a b : Int} (h : key x ≤ a ∨ b < key x) :
    between key a b (l ++ [x]) = between key a b l := by
  have hnil : ([x].filter fun x => a < key x ∧ key x ≤ b) = [] := by
    refine List.filter_eq_nil_iff.mpr fun y hy => ?_
    rw [List.mem_singleton.mp hy, decide_eq_true_eq]
    omega
  rw [between, List.filter_append, hnil, List.append_nil]
  rfl

/-- Behind a later cursor. -/
theorem filter_between {l : List α} {a b c : Int} (hab : a ≤ b) :
    (between key a c l).filter (fun x => b < key x) = between key b c l := by
  rw [between, between, List.filter_filter]
  refine List.filter_congr fun x _ => Bool.eq_iff_iff.mpr ?_
  simp only [Bool.and_eq_true, decide_eq_true_eq]
  omega

theorem between_self {l : List α} {a b : Int} (h : b ≤ a) : between key a b l = [] := by
  refine List.filter_eq_nil_iff.mpr fun x _ => ?_
  rw [decide_eq_true_eq]
  omega

/-- The last item of a stretch that ends at an item. -/
theorem getLast?_between {l : List α} (h : Ascending key l) {x : α} (hx : x ∈ l) {a : Int}
    (hax : a < key x) : (between key a (key x) l).getLast? = some x := by
  have hmem : x ∈ between key a (key x) l := mem_between.mpr ⟨hx, hax, le_refl _⟩
  have hne : between key a (key x) l ≠ [] := List.ne_nil_of_mem hmem
  rw [List.getLast?_eq_some_getLast hne]
  obtain ⟨init, hinit⟩ :=
    List.getLast?_eq_some_iff.mp (List.getLast?_eq_some_getLast hne)
  have hasc : Ascending key (between key a (key x) l) := h.between a (key x)
  have hlast := mem_between.mp (List.getLast_mem hne)
  rw [hinit] at hasc
  rcases List.mem_append.mp (hinit ▸ hmem) with hbefore | hend
  · have := (List.pairwise_append.mp hasc).2.2 x hbefore _ (List.mem_singleton.mpr rfl)
    omega
  · rw [← List.mem_singleton.mp hend]

/-- The next item behind a key, and what is then left. -/
theorem filter_lt_eq_cons {l : List α} (h : Ascending key l) {a : Int} {x : α} {rest : List α}
    (hnext : (l.filter fun y => a < key y) = x :: rest) :
    x ∈ l ∧ a < key x ∧ (∀ y ∈ l, key y < key x → key y ≤ a) ∧
      rest = l.filter fun y => key x < key y := by
  have hasc : Ascending key (x :: rest) := hnext ▸ List.Pairwise.filter _ h
  obtain ⟨hfirst, -⟩ := List.pairwise_cons.mp hasc
  obtain ⟨hmem, hlt⟩ := List.mem_filter.mp (hnext ▸ List.mem_cons_self : x ∈ l.filter _)
  have hlt : a < key x := of_decide_eq_true hlt
  refine ⟨hmem, hlt, fun y hy hbelow => ?_, ?_⟩
  · by_contra hgt
    have hin : y ∈ x :: rest := hnext ▸ List.mem_filter.mpr ⟨hy, decide_eq_true (by omega)⟩
    rcases List.mem_cons.mp hin with rfl | hin
    · exact lt_irrefl _ hbelow
    · exact lt_irrefl _ (lt_trans hbelow (hfirst y hin))
  · have hafter : (l.filter fun y => key x < key y) =
        (l.filter fun y => a < key y).filter fun y => key x < key y := by
      rw [List.filter_filter]
      refine List.filter_congr fun y _ => Bool.eq_iff_iff.mpr ?_
      simp only [Bool.and_eq_true, decide_eq_true_eq]
      omega
    rw [hafter, hnext, List.filter_cons_of_neg (by simp)]
    exact (List.filter_eq_self.mpr fun y hy => decide_eq_true (hfirst y hy)).symm

/-- The first items behind a key are a stretch up to the last of them. -/
theorem take_eq_between {l : List α} (h : Ascending key l) {a : Int} {n : Nat} {x : α}
    (hx : ((l.filter fun y => a < key y).take n).getLast? = some x) :
    (l.filter fun y => a < key y).take n = between key a (key x) l := by
  have hasc : Ascending key (l.filter fun y => a < key y) := List.Pairwise.filter _ h
  have htake : Ascending key ((l.filter fun y => a < key y).take n) :=
    List.Pairwise.sublist (List.take_sublist ..) hasc
  refine htake.eq_of_mem_iff (h.between a (key x)) fun y => ?_
  rw [mem_between]
  constructor
  · intro hy
    obtain ⟨hmem, hlt⟩ := List.mem_filter.mp (List.mem_of_mem_take hy)
    refine ⟨hmem, of_decide_eq_true hlt, ?_⟩
    obtain ⟨init, hinit⟩ := List.getLast?_eq_some_iff.mp hx
    rw [hinit] at hy htake
    rcases List.mem_append.mp hy with hbefore | hend
    · exact le_of_lt ((List.pairwise_append.mp htake).2.2 y hbefore x (by simp))
    · rw [List.mem_singleton.mp hend]
  · rintro ⟨hmem, hlt, hle⟩
    have hin : y ∈ l.filter fun y => a < key y := List.mem_filter.mpr ⟨hmem, decide_eq_true hlt⟩
    rw [← List.take_append_drop n (l.filter fun y => a < key y)] at hin hasc
    rcases List.mem_append.mp hin with hbefore | hbeyond
    · exact hbefore
    · have := (List.pairwise_append.mp hasc).2.2 x (List.mem_of_getLast? hx) y hbeyond
      omega

end CartoLive.Lib
