import CartoLive.Lib.Keyed
import Mathlib.Algebra.GroupWithZero.Nat

/-!
# Batches that forget

Records are taken batch by batch. A batch takes the first record of each key that is not
stored when it begins; what is stored then may be less than what has come before. Compared
with one pass over all records (`firstOfEach`), the batches take some records again. They
take no more if and only if every key that comes back is still stored (`Recalls`).

## Main results

* `keptIn_eq_of_recalls` : batches that recall take what one pass takes.
* `weight_le_keptIn`, `recalls_of_weight` : otherwise they take more.
-/

namespace CartoLive.Lib.Keyed

variable {α κ : Type} [DecidableEq κ] {key : α → κ}

/-! ## Firsts among what has been seen -/

theorem mem_keys_firstOfEach {seen : List κ} {rows : List α} {k : κ} (hk : k ∉ seen) :
    k ∈ (firstOfEach key seen rows).map key ↔ k ∈ rows.map key := by
  have hget : get key k (firstOfEach key seen rows) = get key k rows := get_firstOfEach hk rows
  rw [← not_iff_not, ← get_eq_none_iff, ← get_eq_none_iff, hget]

/-- Only the seen keys count, not their order. -/
theorem firstOfEach_congr {seen seen' : List κ} {rows : List α}
    (h : ∀ x ∈ rows, key x ∈ seen ↔ key x ∈ seen') :
    firstOfEach key seen rows = firstOfEach key seen' rows := by
  induction rows generalizing seen seen' with
  | nil => rfl
  | cons x rows ih =>
    have hx := h x List.mem_cons_self
    have hrows : ∀ y ∈ rows, key y ∈ seen ↔ key y ∈ seen' := fun y hy =>
      h y (List.mem_cons_of_mem x hy)
    rw [firstOfEach, firstOfEach]
    by_cases hseen : key x ∈ seen
    · rw [if_pos hseen, if_pos (hx.mp hseen), ih hrows]
    · rw [if_neg hseen, if_neg fun hmem => hseen (hx.mpr hmem)]
      congr 1
      refine ih fun y hy => ?_
      rw [List.mem_cons, List.mem_cons, hrows y hy]

theorem firstOfEach_append_rows (seen : List κ) (rows more : List α) :
    firstOfEach key seen (rows ++ more) =
      firstOfEach key seen rows ++ firstOfEach key (seen ++ rows.map key) more := by
  induction rows generalizing seen with
  | nil => simp [firstOfEach]
  | cons x rows ih =>
    rw [List.cons_append, firstOfEach, firstOfEach]
    by_cases hx : key x ∈ seen
    · rw [if_pos hx, if_pos hx, ih]
      congr 1
      refine firstOfEach_congr fun y _ => ?_
      rw [List.mem_append, List.mem_append, List.map_cons, List.mem_cons]
      refine ⟨fun h => h.imp_right .inr, ?_⟩
      rintro (h | h | h)
      · exact .inl h
      · exact .inl (h ▸ hx)
      · exact .inr h
    · rw [if_neg hx, if_neg hx, ih (key x :: seen),
        ← List.cons_append]
      congr 1
      refine firstOfEach_congr fun y _ => ?_
      rw [List.mem_append, List.mem_append, List.map_cons, List.mem_cons, List.mem_cons, or_assoc,
        or_left_comm]

/-- With more keys seen, fewer records are taken. -/
theorem firstOfEach_filter {stored known : List κ} (h : stored ⊆ known) (rows : List α) :
    firstOfEach key known rows = (firstOfEach key stored rows).filter fun x => key x ∉ known := by
  induction rows generalizing stored known with
  | nil => rfl
  | cons x rows ih =>
    have hcons : key x :: stored ⊆ key x :: known := List.cons_subset_cons (key x) h
    rw [firstOfEach, firstOfEach]
    by_cases hstored : key x ∈ stored
    · rw [if_pos hstored, if_pos (h hstored), ih h]
    · rw [if_neg hstored]
      by_cases hknown : key x ∈ known
      · rw [if_pos hknown, List.filter_cons, if_neg (by simpa using hknown), ← ih]
        exact List.cons_subset.mpr ⟨hknown, h⟩
      · rw [if_neg hknown, List.filter_cons, if_pos (by simpa using hknown), ih hcons]
        congr 1
        refine List.filter_congr fun y hy => ?_
        have hne : key y ≠ key x := fun heq =>
          (mem_of_mem_firstOfEach hy).2 (heq ▸ List.mem_cons_self)
        simp [hne]

/-- What is seen beyond the stored keys does not matter if and only if none of it comes back. -/
theorem forall_not_mem_iff {stored known : List κ} (rows : List α) :
    (∀ x ∈ firstOfEach key stored rows, key x ∉ known) ↔
      ∀ x ∈ rows, key x ∈ known → key x ∈ stored := by
  constructor
  · intro h x hx hknown
    by_contra hstored
    have hkey := (mem_keys_firstOfEach hstored).mpr (List.mem_map_of_mem hx)
    obtain ⟨y, hy, hsame⟩ := List.mem_map.mp hkey
    exact h y hy (hsame ▸ hknown)
  · intro h x hx hknown
    obtain ⟨hmem, hstored⟩ := mem_of_mem_firstOfEach hx
    exact hstored (h x hmem hknown)

/-! ## Batches -/

section Recall

variable (key) (remember : List κ → List α → List κ)

/-- What the batches take; `remember` says what is stored after a batch. -/
def keptIn : List κ → List (List α) → List α
  | _, [] => []
  | stored, batch :: batches =>
    firstOfEach key stored batch ++ keptIn (remember stored batch) batches

/-- No known key comes back that is not stored any more. -/
def Recalls : List κ → List κ → List (List α) → Prop
  | _, _, [] => True
  | stored, known, batch :: batches =>
    (∀ x ∈ batch, key x ∈ known → key x ∈ stored) ∧
      Recalls (remember stored batch) (known ++ batch.map key) batches

instance decidableRecalls : (stored known : List κ) → (batches : List (List α)) →
    Decidable (Recalls key remember stored known batches)
  | _, _, [] => isTrue trivial
  | stored, known, batch :: batches =>
    have := decidableRecalls (remember stored batch) (known ++ batch.map key) batches
    inferInstanceAs (Decidable (_ ∧ _))

variable {key remember}

/-- What is stored is part of what is known. -/
def Recollects (key : α → κ) (remember : List κ → List α → List κ) : Prop :=
  ∀ stored batch, remember stored batch ⊆ stored ++ batch.map key

omit [DecidableEq κ] in
theorem Recollects.subset (h : Recollects key remember) {stored known : List κ}
    (hsub : stored ⊆ known) (batch : List α) :
    remember stored batch ⊆ known ++ batch.map key :=
  fun _ hk => (List.mem_append.mp (h stored batch hk)).elim
    (fun hmem => List.mem_append_left _ (hsub hmem)) (List.mem_append_right _)

theorem firstOfEach_flatten_cons (known : List κ) (batch : List α) (batches : List (List α)) :
    firstOfEach key known (batch :: batches).flatten =
      firstOfEach key known batch ++ firstOfEach key (known ++ batch.map key) batches.flatten := by
  rw [List.flatten_cons, firstOfEach_append_rows]

theorem keptIn_eq_of_recalls (hremember : Recollects key remember) {stored known : List κ}
    (hsub : stored ⊆ known) {batches : List (List α)}
    (h : Recalls key remember stored known batches) :
    keptIn key remember stored batches = firstOfEach key known batches.flatten := by
  induction batches generalizing stored known with
  | nil => rfl
  | cons batch batches ih =>
    rw [firstOfEach_flatten_cons, keptIn, ih (hremember.subset hsub batch) h.2]
    congr 1
    exact firstOfEach_congr fun x hx => ⟨fun hmem => hsub hmem, h.1 x hx⟩

variable (weight : α → Nat)

theorem weight_filter_le (p : α → Bool) (rows : List α) :
    ((rows.filter p).map weight).sum ≤ (rows.map weight).sum := by
  induction rows with
  | nil => exact Nat.le_refl 0
  | cons x rows ih =>
    rw [List.filter_cons, List.map_cons, List.sum_cons]
    split
    · rw [List.map_cons, List.sum_cons]
      omega
    · omega

/-- Nothing that weighs anything can be left out without weighing less. -/
theorem forall_of_weight_filter {p : α → Bool} {rows : List α} (hpos : ∀ x ∈ rows, 0 < weight x)
    (h : (rows.map weight).sum ≤ ((rows.filter p).map weight).sum) : ∀ x ∈ rows, p x := by
  induction rows with
  | nil => exact fun x hx => absurd hx List.not_mem_nil
  | cons x rows ih =>
    rw [List.filter_cons, List.map_cons, List.sum_cons] at h
    have hx := hpos x List.mem_cons_self
    have hle := weight_filter_le weight p rows
    split at h
    · rename_i hp
      rw [List.map_cons, List.sum_cons] at h
      rintro y hy
      rcases List.mem_cons.mp hy with rfl | hy
      · exact hp
      · exact ih (fun y hy => hpos y (List.mem_cons_of_mem x hy)) (by omega) y hy
    · omega

/-- The batches take at least the weight of one pass. -/
theorem weight_le_keptIn (hremember : Recollects key remember) {stored known : List κ}
    (hsub : stored ⊆ known) (batches : List (List α)) :
    ((firstOfEach key known batches.flatten).map weight).sum ≤
      ((keptIn key remember stored batches).map weight).sum := by
  induction batches generalizing stored known with
  | nil => exact Nat.le_refl 0
  | cons batch batches ih =>
    have hrest := ih (hremember.subset hsub batch)
    have hfirst := weight_filter_le weight (fun x => decide (key x ∉ known))
      (firstOfEach key stored batch)
    rw [firstOfEach_flatten_cons, keptIn, firstOfEach_filter hsub, List.map_append,
      List.map_append, List.sum_append, List.sum_append]
    omega

/-- They take no more only if they recall. -/
theorem recalls_of_weight (hremember : Recollects key remember) {stored known : List κ}
    (hsub : stored ⊆ known) {batches : List (List α)}
    (hpos : ∀ batch ∈ batches, ∀ x ∈ batch, 0 < weight x)
    (h : ((keptIn key remember stored batches).map weight).sum ≤
      ((firstOfEach key known batches.flatten).map weight).sum) :
    Recalls key remember stored known batches := by
  induction batches generalizing stored known with
  | nil => exact trivial
  | cons batch batches ih =>
    have hrest := weight_le_keptIn weight hremember (hremember.subset hsub batch) batches
    have hfirst := weight_filter_le weight (fun x => decide (key x ∉ known))
      (firstOfEach key stored batch)
    rw [firstOfEach_flatten_cons, keptIn, firstOfEach_filter hsub, List.map_append,
      List.map_append, List.sum_append, List.sum_append] at h
    refine ⟨?_, ih (hremember.subset hsub batch)
      (fun later hlater => hpos later (List.mem_cons_of_mem batch hlater)) (by omega)⟩
    have hpositive : ∀ x ∈ firstOfEach key stored batch, 0 < weight x := fun x hx =>
      hpos batch List.mem_cons_self x (mem_of_mem_firstOfEach hx).1
    have hkept : ∀ x ∈ firstOfEach key stored batch, decide (key x ∉ known) :=
      forall_of_weight_filter weight hpositive (by omega)
    exact (forall_not_mem_iff batch).mp fun x hx => of_decide_eq_true (hkept x hx)

end Recall

end CartoLive.Lib.Keyed
