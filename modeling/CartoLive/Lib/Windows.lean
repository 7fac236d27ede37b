import Mathlib.Data.List.Sort

/-!
# The first rows of a sorted table

A query sorts a table and returns the first rows of it. What a later filter
leaves of them is the first rows of the filtered table, if no row that the filter
rejects stands among the first while one that it admits is cut off
(`filter_take_of_uncrowded`), since filtering and sorting commute
(`filter_insertionSort`). An admitted row is among the first exactly if for one of
them few enough rejected ones come before it (`exists_mem_take_iff`).
-/

namespace CartoLive.Lib

universe u

variable {α : Type u} {before : α → α → Prop} [DecidableRel before]

theorem filter_orderedInsert (htrans : ∀ a b c, before a b → before b c → before a c) (p : α → Bool) (a : α) {l : List α}
    (hl : l.Pairwise before) :
    (l.orderedInsert before a).filter p =
      if p a then (l.filter p).orderedInsert before a else l.filter p := by
  induction l with
  | nil => cases hp : p a <;> simp [hp]
  | cons b l ih =>
    obtain ⟨hb, hl⟩ := List.pairwise_cons.mp hl
    by_cases hab : before a b
    · rw [List.orderedInsert_cons, if_pos hab]
      cases hp : p a with
      | false => rw [List.filter_cons_of_neg (by simp [hp])]; rfl
      | true =>
        rw [List.filter_cons_of_pos hp, if_pos rfl]
        -- `a` stands before whatever the filter leaves
        have hfirst : ∀ c ∈ (b :: l).filter p, before a c := by
          intro c hc
          rcases List.mem_cons.mp (List.mem_of_mem_filter hc) with rfl | hc
          · exact hab
          · exact htrans a b c hab (hb c hc)
        cases hfilter : (b :: l).filter p with
        | nil => rfl
        | cons c rest =>
          rw [List.orderedInsert_cons, if_pos (hfirst c (by simp [hfilter]))]
    · rw [List.orderedInsert_cons, if_neg hab]
      cases hpb : p b with
      | false =>
        rw [List.filter_cons_of_neg (by simp [hpb]), List.filter_cons_of_neg (by simp [hpb])]
        exact ih hl
      | true =>
        rw [List.filter_cons_of_pos hpb, List.filter_cons_of_pos hpb, ih hl]
        cases hp : p a with
        | false => rfl
        | true => simp [hab]

theorem filter_insertionSort (htotal : ∀ a b, before a b ∨ before b a)
    (htrans : ∀ a b c, before a b → before b c → before a c) (p : α → Bool) (l : List α) :
    (l.insertionSort before).filter p = (l.filter p).insertionSort before := by
  induction l with
  | nil => rfl
  | cons a l ih =>
    have : Std.Total before := ⟨htotal⟩
    have : IsTrans α before := ⟨htrans⟩
    rw [List.insertionSort_cons, filter_orderedInsert htrans p a
      (List.pairwise_insertionSort before l), ih]
    cases hp : p a with
    | false => rw [List.filter_cons_of_neg (by simp [hp])]; rfl
    | true => rw [List.filter_cons_of_pos hp]; rfl

/-- Where an admitted row is cut off, no rejected one stands among the first. -/
def Uncrowded (p : α → Bool) (n : Nat) (l : List α) : Prop :=
  ∀ a ∈ l.drop n, p a = true → ∀ b ∈ l.take n, p b = true

instance (p : α → Bool) (n : Nat) (l : List α) : Decidable (Uncrowded p n l) := by
  unfold Uncrowded
  infer_instance

theorem filter_take_of_uncrowded {p : α → Bool} {n : Nat} {l : List α} (h : Uncrowded p n l) :
    (l.take n).filter p = (l.filter p).take n := by
  have hsplit := congrArg (List.filter p) (List.take_append_drop n l)
  rw [List.filter_append] at hsplit
  rw [← hsplit]
  by_cases hcut : (l.drop n).filter p = []
  · have hle : ((l.take n).filter p).length ≤ n :=
      (List.length_filter_le ..).trans (List.length_take_le ..)
    rw [hcut, List.append_nil, List.take_of_length_le hle]
  · obtain ⟨a, ha⟩ := List.exists_mem_of_ne_nil _ hcut
    obtain ⟨hmem, hp⟩ := List.mem_filter.mp ha
    have hall : (l.take n).filter p = l.take n :=
      List.filter_eq_self.mpr fun b hb => h a hmem hp b hb
    have hlength : (l.take n).length = n := by
      have := List.length_pos_of_mem hmem
      rw [List.length_drop] at this
      rw [List.length_take]
      omega
    rw [hall]
    exact (List.take_left' hlength).symm

omit [DecidableRel before] in
/-- In a strict order, the rows before a row are the ones in front of it. -/
theorem eq_append_of_mem [IsStrictOrder α before] {l : List α} (h : l.Pairwise before) {a : α}
    (ha : a ∈ l) : ∃ front rest, l = front ++ a :: rest ∧ ∀ b ∈ l, b ∈ front ↔ before b a := by
  obtain ⟨front, rest, rfl⟩ := List.append_of_mem ha
  refine ⟨front, rest, rfl, fun b hb => ?_⟩
  obtain ⟨-, hrest, hfront⟩ := List.pairwise_append.mp h
  constructor
  · exact fun hin => hfront b hin a List.mem_cons_self
  · intro hba
    rcases List.mem_append.mp hb with hin | hin
    · exact hin
    · rcases List.mem_cons.mp hin with rfl | hin
      · exact absurd hba (irrefl_of before b)
      · have hab := (List.pairwise_cons.mp hrest).1 b hin
        exact absurd (trans_of before hba hab) (irrefl_of before b)

theorem exists_mem_take_iff [IsStrictOrder α before] {l : List α} (h : l.Pairwise before)
    (p : α → Bool) (n : Nat) :
    (∃ a ∈ l.take n, p a = true) ↔
      ∃ a ∈ l, p a = true ∧ (l.filter fun b => !p b && decide (before b a)).length < n := by
  have hne : ∀ {a b : α}, before a b → a ≠ b := by
    rintro a _ hlt rfl
    exact irrefl_of before a hlt
  have hnodup : l.Nodup := h.imp hne
  have hcount : ∀ {front rest : List α} {a : α}, l = front ++ a :: rest →
      (∀ b ∈ l, b ∈ front ↔ before b a) →
      (l.filter fun b => !p b && decide (before b a)) = front.filter fun b => !p b := by
    intro front rest a hl hfront
    have hrest : ((a :: rest).filter fun b => !p b && decide (before b a)) = [] := by
      refine List.filter_eq_nil_iff.mpr fun b hb hkept => ?_
      obtain ⟨-, hba⟩ := Bool.and_eq_true_iff.mp hkept
      have hin := (hfront b (hl ▸ List.mem_append_right _ hb)).mpr (of_decide_eq_true hba)
      rw [hl] at hnodup
      exact (List.disjoint_of_nodup_append hnodup) hin hb
    rw [hl, List.filter_append, hrest, List.append_nil]
    refine List.filter_congr fun b hb => ?_
    rw [decide_eq_true ((hfront b (hl ▸ List.mem_append_left _ hb)).mp hb), Bool.and_true]
  constructor
  · rintro ⟨a, ha, hp⟩
    obtain ⟨front, rest, hl, hfront⟩ := eq_append_of_mem h (List.mem_of_mem_take ha)
    refine ⟨a, List.mem_of_mem_take ha, hp, ?_⟩
    rw [hcount hl hfront]
    refine (List.length_filter_le ..).trans_lt ?_
    -- the row stands at the end of its front, among the first `n`
    by_contra hlong
    rw [hl, List.take_append_of_le_length (by omega)] at ha
    rw [hl] at hnodup
    exact List.disjoint_of_nodup_append hnodup (List.mem_of_mem_take ha) List.mem_cons_self
  · rintro ⟨a, ha, hp, hlt⟩
    obtain ⟨front, rest, hl, hfront⟩ := eq_append_of_mem h ha
    rw [hcount hl hfront] at hlt
    by_contra hnone
    have hrejected : ∀ b ∈ l.take n, (!p b) = true := by
      intro b hb
      rw [Bool.not_eq_true', Bool.eq_false_iff]
      exact fun hadmitted => hnone ⟨b, hb, hadmitted⟩
    by_cases hshort : front.length < n
    · refine hnone ⟨a, ?_, hp⟩
      rw [hl, List.take_append, List.mem_append, List.take_cons (by omega)]
      exact .inr List.mem_cons_self
    · have htake : l.take n = front.take n := by
        rw [hl, List.take_append_of_le_length (by omega)]
      have hle : (front.take n).length ≤ (front.filter fun b => !p b).length := by
        have hself : (front.take n).filter (fun b => !p b) = front.take n :=
          List.filter_eq_self.mpr fun b hb => hrejected b (htake ▸ hb)
        rw [← hself]
        exact ((List.take_sublist n front).filter _).length_le
      rw [List.length_take] at hle
      omega

end CartoLive.Lib
