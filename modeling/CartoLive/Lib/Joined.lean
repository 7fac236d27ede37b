import Mathlib.Algebra.BigOperators.Group.List.Basic
import Mathlib.Algebra.GroupWithZero.Nat
import Mathlib.Algebra.Order.BigOperators.Group.List
import Mathlib.Algebra.Order.Group.Nat
import Mathlib.Data.List.Induction
import Mathlib.Data.List.Perm.Basic

/-!
# Joined lists

Lists joined by a separator, as keys are made of fields. Where no part holds the
separator, the parts can be told from the whole (`append_cons_inj`,
`intercalate_inj`), and where a part shows by itself when it is complete
(`intercalate_inj_of_complete`); where parts may hold it, lengths still tell
whether a part was left out (`eq_of_sublist_of_length_intercalate`).
-/

namespace CartoLive.Lib

universe u

variable {α : Type u} {s : α}

/-! ## Two parts -/

/-- What is before the first separator. -/
theorem append_cons_inj {a b r r' : List α} (ha : s ∉ a) (hb : s ∉ b)
    (h : a ++ s :: r = b ++ s :: r') : a = b ∧ r = r' := by
  induction a generalizing b with
  | nil =>
    cases b with
    | nil => exact ⟨rfl, (List.cons.inj h).2⟩
    | cons c b =>
      obtain ⟨rfl, -⟩ := List.cons.inj h
      exact absurd List.mem_cons_self hb
  | cons c a ih =>
    cases b with
    | nil =>
      obtain ⟨rfl, -⟩ := List.cons.inj h
      exact absurd List.mem_cons_self ha
    | cons d b =>
      obtain ⟨rfl, hrest⟩ := List.cons.inj h
      obtain ⟨rfl, hr⟩ := ih (fun hin => ha (List.mem_cons_of_mem _ hin))
        (fun hin => hb (List.mem_cons_of_mem _ hin)) hrest
      exact ⟨rfl, hr⟩

/-- What is behind the last separator. -/
theorem append_cons_inj_last {a b r r' : List α} (hr : s ∉ r) (hr' : s ∉ r')
    (h : a ++ s :: r = b ++ s :: r') : a = b ∧ r = r' := by
  have hreverse := congrArg List.reverse h
  simp only [List.reverse_append, List.reverse_cons, List.append_assoc, List.singleton_append]
    at hreverse
  obtain ⟨hlast, hfirst⟩ := append_cons_inj (by simpa using hr) (by simpa using hr') hreverse
  exact ⟨List.reverse_injective hfirst, List.reverse_injective hlast⟩

/-! ## Many parts -/

/-- Items that hold no separator can be told from what they make together. -/
theorem intercalate_inj [DecidableEq α] {items items' : List (List α)} (hne : items ≠ [])
    (hne' : items' ≠ []) (hfree : ∀ l ∈ items, s ∉ l) (hfree' : ∀ l ∈ items', s ∉ l)
    (h : [s].intercalate items = [s].intercalate items') : items = items' := by
  rw [← List.splitOn_intercalate s hfree hne, h, List.splitOn_intercalate s hfree' hne']

theorem intercalate_cons_eq (s : α) (l : List α) (items : List (List α)) :
    [s].intercalate (l :: items) = l ++ items.flatMap (s :: ·) := by
  induction items generalizing l with
  | nil => simp
  | cons m items ih =>
    rw [List.intercalate_cons_cons, ih, List.flatMap_cons]
    simp

/-- What items make together is of the items and the separator. -/
theorem mem_of_mem_intercalate {items : List (List α)} {c : α} (h : c ∈ [s].intercalate items) :
    c = s ∨ ∃ l ∈ items, c ∈ l := by
  cases items with
  | nil => cases h
  | cons l items =>
    rw [intercalate_cons_eq, List.mem_append, List.mem_flatMap] at h
    rcases h with hl | ⟨m, hm, hc⟩
    · exact .inr ⟨l, List.mem_cons_self, hl⟩
    · rcases List.mem_cons.mp hc with hs | hc
      · exact .inl hs
      · exact .inr ⟨m, List.mem_cons_of_mem _ hm, hc⟩

/-- Items can be told from what they make together where each is complete by itself, and is not
complete before a separator that it holds. -/
theorem intercalate_inj_of_complete {complete : List α → Prop} {items items' : List (List α)}
    (hnil : ¬ complete [])
    (h : ∀ l ∈ items, complete l ∧ ∀ x y, l = x ++ s :: y → ¬ complete x)
    (h' : ∀ l ∈ items', complete l ∧ ∀ x y, l = x ++ s :: y → ¬ complete x)
    (heq : [s].intercalate items = [s].intercalate items') : items = items' := by
  -- What begins with a complete item and goes on with a separator is no item.
  have hlonger : ∀ {l m r r' : List α}, complete l → (∀ x y, m = x ++ s :: y → ¬ complete x) →
      l ++ s :: r = m ++ r' → m.length ≤ l.length := by
    intro l m r r' hl hm hparts
    by_contra hlt
    rcases List.append_eq_append_iff.mp hparts with ⟨x, hx, hrest⟩ | ⟨x, hx, -⟩
    · cases x with
      | nil =>
        rw [hx, List.append_nil] at hlt
        exact hlt le_rfl
      | cons c x =>
        obtain ⟨rfl, -⟩ := List.cons.inj hrest
        exact hm l x hx hl
    · rw [hx, List.length_append] at hlt
      omega
  induction items generalizing items' with
  | nil =>
    cases items' with
    | nil => rfl
    | cons l items' =>
      rw [intercalate_cons_eq] at heq
      have hempty : l = [] := (List.append_eq_nil_iff.mp heq.symm).1
      exact absurd (hempty ▸ (h' l List.mem_cons_self).1) hnil
  | cons l items ih =>
    cases items' with
    | nil =>
      rw [intercalate_cons_eq] at heq
      have hempty : l = [] := (List.append_eq_nil_iff.mp heq).1
      exact absurd (hempty ▸ (h l List.mem_cons_self).1) hnil
    | cons m items' =>
      obtain ⟨hl, hlparts⟩ := h l List.mem_cons_self
      obtain ⟨hm, hmparts⟩ := h' m List.mem_cons_self
      cases items with
      | nil =>
        cases items' with
        | nil =>
          rw [intercalate_cons_eq, intercalate_cons_eq] at heq
          simpa using heq
        | cons m' items' =>
          rw [List.intercalate_cons_cons, intercalate_cons_eq] at heq
          have hwhole : l = m ++ s :: [s].intercalate (m' :: items') := by simpa using heq
          exact absurd hm (hlparts m _ hwhole)
      | cons l' items =>
        cases items' with
        | nil =>
          rw [List.intercalate_cons_cons, intercalate_cons_eq] at heq
          have hwhole : m = l ++ s :: [s].intercalate (l' :: items) := by
            simpa [intercalate_cons_eq] using heq.symm
          exact absurd hl (hmparts l _ hwhole)
        | cons m' items' =>
          rw [List.intercalate_cons_cons, List.intercalate_cons_cons, List.append_assoc,
            List.append_assoc, List.singleton_append, List.singleton_append] at heq
          have hlength : l.length = m.length :=
            (hlonger hm hlparts heq.symm).antisymm (hlonger hl hmparts heq)
          obtain ⟨hfirst, hrest⟩ := List.append_inj heq hlength
          rw [hfirst, ih (fun k hk => h k (List.mem_cons_of_mem _ hk))
            (fun k hk => h' k (List.mem_cons_of_mem _ hk)) (List.cons.inj hrest).2]

/-- Parts without the separator behind a first one that may hold it. -/
theorem append_flatMap_inj {a a' : List α} {parts parts' : List (List α)}
    (hlength : parts.length = parts'.length) (hfree : ∀ l ∈ parts, s ∉ l)
    (hfree' : ∀ l ∈ parts', s ∉ l)
    (h : a ++ parts.flatMap (s :: ·) = a' ++ parts'.flatMap (s :: ·)) :
    a = a' ∧ parts = parts' := by
  induction parts using List.reverseRecOn generalizing parts' with
  | nil =>
    have hnil : parts' = [] := List.length_eq_zero_iff.mp hlength.symm
    rw [hnil] at h ⊢
    simpa using h
  | append_singleton parts l ih =>
    obtain ⟨parts', l', rfl⟩ : ∃ init last, parts' = init ++ [last] := by
      cases parts' using List.reverseRecOn with
      | nil => simp at hlength
      | append_singleton init last => exact ⟨init, last, rfl⟩
    rw [List.flatMap_append, List.flatMap_append, List.flatMap_singleton, List.flatMap_singleton,
      ← List.append_assoc, ← List.append_assoc] at h
    obtain ⟨hinit, hlast⟩ := append_cons_inj_last
      (hfree l (List.mem_append_right _ List.mem_cons_self))
      (hfree' l' (List.mem_append_right _ List.mem_cons_self)) h
    obtain ⟨hfirst, hparts⟩ := ih (by simpa using hlength)
      (fun k hk => hfree k (List.mem_append_left _ hk))
      (fun k hk => hfree' k (List.mem_append_left _ hk)) hinit
    exact ⟨hfirst, by rw [hparts, hlast]⟩

/-- Items that are not empty and hold no separator can be told from what they make together. -/
theorem intercalate_inj_of_ne_nil {items items' : List (List α)}
    (h : ∀ l ∈ items, l ≠ [] ∧ s ∉ l) (h' : ∀ l ∈ items', l ≠ [] ∧ s ∉ l)
    (heq : [s].intercalate items = [s].intercalate items') : items = items' := by
  have hwhole : ∀ {l : List α}, l ≠ [] ∧ s ∉ l →
      l ≠ [] ∧ ∀ x y, l = x ++ s :: y → ¬ x ≠ [] :=
    fun hl => ⟨hl.1, fun x y hxy => absurd (by rw [hxy]; simp) hl.2⟩
  exact intercalate_inj_of_complete (not_not_intro rfl) (fun l hl => hwhole (h l hl))
    (fun l hl => hwhole (h' l hl)) heq

theorem intercalate_cons_append (s : α) (k : List α) (front : List (List α)) (l : List α)
    (back : List (List α)) : [s].intercalate (k :: front ++ l :: back) =
      k ++ s :: [s].intercalate (front ++ l :: back) := by
  cases front with
  | nil =>
    rw [List.nil_append, List.singleton_append, List.intercalate_cons_cons]
    simp
  | cons m front =>
    rw [List.cons_append, List.cons_append, List.intercalate_cons_cons]
    simp

/-- Parts without the separator around one that may hold it. -/
theorem intercalate_middle_inj {front front' back back' : List (List α)} {l l' : List α}
    (hfront : front.length = front'.length) (hback : back.length = back'.length)
    (h : ∀ k ∈ front ++ back, s ∉ k) (h' : ∀ k ∈ front' ++ back', s ∉ k)
    (heq : [s].intercalate (front ++ l :: back) = [s].intercalate (front' ++ l' :: back')) :
    front = front' ∧ l = l' ∧ back = back' := by
  induction front generalizing front' with
  | nil =>
    have hnil : front' = [] := List.length_eq_zero_iff.mp hfront.symm
    subst hnil
    rw [List.nil_append, List.nil_append, intercalate_cons_eq, intercalate_cons_eq] at heq
    exact ⟨rfl, append_flatMap_inj hback h h' heq⟩
  | cons k front ih =>
    cases front' with
    | nil => cases hfront
    | cons k' front' =>
      rw [intercalate_cons_append, intercalate_cons_append] at heq
      obtain ⟨hk, hrest⟩ := append_cons_inj (h k List.mem_cons_self) (h' k' List.mem_cons_self) heq
      obtain ⟨hparts, hl, hmarks⟩ := ih (Nat.succ.inj hfront)
        (fun m hm => h m (List.mem_cons_of_mem _ hm))
        (fun m hm => h' m (List.mem_cons_of_mem _ hm)) hrest
      exact ⟨by rw [hk, hparts], hl, hmarks⟩

/-! ## Parts of parts -/

/-- What is before a separator, behind a part that does not hold it. -/
theorem exists_of_append_eq {a b x y : List α} (ha : s ∉ a) (h : a ++ b = x ++ s :: y) :
    ∃ z, x = a ++ z ∧ b = z ++ s :: y := by
  rcases List.append_eq_append_iff.mp h with ⟨z, hx, hb⟩ | ⟨z, rfl, hy⟩
  · exact ⟨z, hx, hb⟩
  · cases z with
    | nil => exact ⟨[], by simp, hy.symm⟩
    | cons c z =>
      obtain ⟨rfl, -⟩ := List.cons.inj hy
      exact absurd (by simp) ha

/-- What is before a separator, in front of a part that does not hold it. -/
theorem exists_of_append_eq_left {a b x y : List α} (hb : s ∉ b) (h : a ++ b = x ++ s :: y) :
    ∃ z, a = x ++ s :: z := by
  rcases List.append_eq_append_iff.mp h with ⟨z, -, rfl⟩ | ⟨z, rfl, hy⟩
  · exact absurd (by simp) hb
  · cases z with
    | nil =>
      rw [List.nil_append] at hy
      exact absurd (hy ▸ List.mem_cons_self) hb
    | cons c z =>
      obtain ⟨rfl, -⟩ := List.cons.inj hy
      exact ⟨z, rfl⟩

variable [DecidableEq α]

theorem length_le_count_flatMap (s : α) (parts : List (List α)) :
    parts.length ≤ (parts.flatMap (s :: ·)).count s := by
  induction parts with
  | nil => exact Nat.zero_le _
  | cons l parts ih =>
    rw [List.flatMap_cons, List.count_append, List.count_cons_self, List.length_cons]
    omega

/-- A record holds a separator for each field around its free one. -/
theorem add_length_le_count_intercalate (s : α) (front : List (List α)) (free : List α)
    (back : List (List α)) :
    front.length + back.length ≤ ([s].intercalate (front ++ free :: back)).count s := by
  induction front with
  | nil =>
    rw [List.nil_append, intercalate_cons_eq, List.count_append, List.length_nil]
    have := length_le_count_flatMap s back
    omega
  | cons k front ih =>
    rw [intercalate_cons_append, List.count_append, List.count_cons_self, List.length_cons]
    omega

/-- Before a separator of records that a record of fields holds, it is not complete: the
separator is in its free field, behind fewer separators of fields than follow that field. -/
theorem count_lt_of_free_field {t : α} (hne : s ≠ t) {front back : List (List α)}
    {free x y : List α} (hs : ∀ k ∈ front, s ∉ k) (ht : ∀ k ∈ front ++ back, t ∉ k)
    (hfree : ∀ x y, free = x ++ t :: y → x.count s < back.length)
    (h : [s].intercalate (front ++ free :: back) = x ++ t :: y) :
    x.count s < front.length + back.length := by
  induction front generalizing x with
  | nil =>
    rw [List.nil_append, intercalate_cons_eq] at h
    have hmarks : t ∉ back.flatMap (s :: ·) := by
      intro hmem
      obtain ⟨k, hk, hin⟩ := List.mem_flatMap.mp hmem
      rcases List.mem_cons.mp hin with heq | hin
      · exact hne heq.symm
      · exact ht k hk hin
    obtain ⟨z, hz⟩ := exists_of_append_eq_left hmarks h
    rw [List.length_nil, Nat.zero_add]
    exact hfree x z hz
  | cons k front ih =>
    rw [intercalate_cons_append] at h
    obtain ⟨z, rfl, hrest⟩ := exists_of_append_eq (ht k List.mem_cons_self) h
    have hzero : k.count s = 0 := List.count_eq_zero.mpr (hs k List.mem_cons_self)
    cases z with
    | nil => exact absurd (List.cons.inj hrest).1 hne
    | cons c z =>
      obtain ⟨rfl, hinner⟩ := List.cons.inj hrest
      have hlt := ih (fun m hm => hs m (List.mem_cons_of_mem _ hm))
        (fun m hm => ht m (List.mem_cons_of_mem _ hm)) hinner
      rw [List.count_append, List.count_cons_self, hzero, List.length_cons]
      omega

/-! ## Lengths -/

omit [DecidableEq α]

/-- The length of the items with their separators. -/
def spread (items : List (List α)) : Nat := (items.map fun l => l.length + 1).sum

theorem length_intercalate (s : α) (items : List (List α)) :
    ([s].intercalate items).length = spread items - 1 := by
  induction items with
  | nil => rfl
  | cons l items ih =>
    cases items with
    | nil => simp [spread]
    | cons m items =>
      rw [List.intercalate_cons_cons, List.length_append, List.length_append, ih]
      simp only [spread, List.map_cons, List.sum_cons, List.length_singleton]
      omega

theorem spread_perm {items items' : List (List α)} (h : items.Perm items') :
    spread items = spread items' := (h.map _).sum_eq

theorem spread_le_of_sublist {items items' : List (List α)} (h : items.Sublist items') :
    spread items ≤ spread items' := (h.map _).sum_le_sum fun _ _ => Nat.zero_le _

/-- A part left out of items that are not empty is missed. -/
theorem eq_of_sublist_of_length_intercalate {items items' : List (List α)}
    (h : items.Sublist items') (hne : ∀ l ∈ items', l ≠ [])
    (hlength : ([s].intercalate items).length = ([s].intercalate items').length) :
    items = items' := by
  rw [length_intercalate, length_intercalate] at hlength
  have hspread : ∀ l ∈ items', 2 ≤ l.length + 1 := fun l hl => by
    have := List.length_pos_iff.mpr (hne l hl)
    omega
  clear hne
  induction h with
  | slnil => rfl
  | @cons items items' l hsub ih =>
    -- the whole is longer by the part left out
    have hle := spread_le_of_sublist hsub
    have hl := hspread l List.mem_cons_self
    simp only [spread, List.map_cons, List.sum_cons] at hlength hle
    omega
  | @cons_cons items items' l hsub ih =>
    rw [ih]
    · simp only [spread, List.map_cons, List.sum_cons] at hlength ⊢
      omega
    · exact fun m hm => hspread m (List.mem_cons_of_mem _ hm)

end CartoLive.Lib
