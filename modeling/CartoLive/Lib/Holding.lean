import Mathlib.Data.List.Basic

/-!
# Locks that processes hold

A lock that some of a list of processes share or one of them holds alone, read
off the processes: `hold p` is how process `p` holds it. Taking a lock waits for
the others, and every other step gives the lock up or leaves it
(`exclusion_set`), so whoever holds it alone is the only one to hold it
(`Exclusion`).
-/

namespace CartoLive.Lib

universe u

/-- How a process holds a lock. -/
inductive Hold
  | free
  | shared
  | alone
  deriving DecidableEq

variable {α : Type u} (hold : α → Hold)

/-- The lock may be shared. -/
def Sharable (procs : List α) : Prop := ∀ p ∈ procs, hold p ≠ .alone

/-- The lock may be taken alone. -/
def Unheld (procs : List α) : Prop := ∀ p ∈ procs, hold p = .free

instance (procs : List α) : Decidable (Sharable hold procs) :=
  inferInstanceAs (Decidable (∀ p ∈ procs, _))

instance (procs : List α) : Decidable (Unheld hold procs) :=
  inferInstanceAs (Decidable (∀ p ∈ procs, _))

/-- Beside a process that holds the lock alone no other holds it. -/
def Exclusion (procs : List α) : Prop :=
  ∀ (i j : Nat) (p q : α), procs[i]? = some p → procs[j]? = some q → i ≠ j → hold p = .alone → hold q = .free

/-- How a process may come to hold a lock. -/
inductive Takes (procs : List α) (p p' : α) : Prop
  | share (h : hold p' = .shared) (guard : Sharable hold procs)
  | take (h : hold p' = .alone) (guard : Unheld hold procs)
  | giveUp (h : hold p' = .free)
  | keep (h : hold p' = hold p)

variable {hold} {procs : List α} {i : Nat} {p p' : α}

theorem exclusion_nil : Exclusion hold [] := by
  intro i j p q hp
  simp at hp

/-- A process that starts holds nothing. -/
theorem exclusion_concat (h : Exclusion hold procs) (hp : hold p = .free) :
    Exclusion hold (procs ++ [p]) := by
  have hsplit : ∀ {i : Nat} {q : α}, (procs ++ [p])[i]? = some q →
      procs[i]? = some q ∨ hold q = .free := by
    intro i q hq
    rw [List.getElem?_append] at hq
    split at hq
    · exact .inl hq
    · rw [List.mem_singleton.mp (List.mem_of_getElem? hq)]
      exact .inr hp
  intro i j q r hq hr hij hq'
  rcases hsplit hq with hqold | hqfree
  · rcases hsplit hr with hrold | hrfree
    · exact h i j q r hqold hrold hij hq'
    · exact hrfree
  · rw [hqfree] at hq'
    cases hq'

/-- A step of one process. -/
theorem exclusion_set (h : Exclusion hold procs) (hp : procs[i]? = some p)
    (htakes : Takes hold procs p p') : Exclusion hold (procs.set i p') := by
  have hother : ∀ {j : Nat} {q : α}, (procs.set i p')[j]? = some q → i ≠ j → procs[j]? = some q :=
    fun hq hne => (List.getElem?_set_ne hne) ▸ hq
  have hself : ∀ {q}, (procs.set i p')[i]? = some q → q = p' := fun hq => by
    rw [List.getElem?_set_self (List.getElem?_eq_some_iff.mp hp).1] at hq
    exact (Option.some.inj hq).symm
  intro j k q r hq hr hjk halone
  by_cases hj : i = j
  · -- the process itself holds the lock alone
    subst hj
    obtain rfl := hself hq
    have hr := hother hr hjk
    cases htakes with
    | share hshared => exact absurd (hshared.symm.trans halone) (by decide)
    | take _ guard => exact guard r (List.mem_of_getElem? hr)
    | giveUp hfree => exact absurd (hfree.symm.trans halone) (by decide)
    | keep hkeep => exact h i k p r hp hr hjk (hkeep.symm.trans halone)
  · have hqold := hother hq hj
    by_cases hk : i = k
    · -- another does, so the process cannot have come to hold it
      subst hk
      obtain rfl := hself hr
      cases htakes with
      | share _ guard => exact absurd halone (guard q (List.mem_of_getElem? hqold))
      | take _ guard =>
        exact absurd (halone.symm.trans (guard q (List.mem_of_getElem? hqold))) (by decide)
      | giveUp hfree => exact hfree
      | keep hkeep => exact hkeep.trans (h j i q p hqold hp hjk halone)
    · exact h j k q r hqold (hother hr hk) hjk halone

/-- Nobody holds a lock alone that a process shares. -/
theorem Exclusion.sharable (h : Exclusion hold procs) (hp : procs[i]? = some p)
    (hshared : hold p = .shared) : Sharable hold procs := by
  intro q hq halone
  obtain ⟨j, hj⟩ := List.mem_iff_getElem?.mp hq
  rcases eq_or_ne j i with rfl | hne
  · rw [Option.some.inj (hj.symm.trans hp), hshared] at halone
    cases halone
  · have hfree := h j i q p hj hp hne halone
    rw [hshared] at hfree
    cases hfree

theorem Exclusion.tail {x : α} (h : Exclusion hold (x :: procs)) : Exclusion hold procs :=
  fun i j q r hq hr hij => h (i + 1) (j + 1) q r hq hr (by omega)

/-- The same of processes that are looked at through `f`. -/
theorem Exclusion.of_map {β : Type*} {f : β → α} {l : List β} (h : Exclusion hold (l.map f)) :
    Exclusion (hold ∘ f) l := by
  intro i j q r hq hr hij
  refine h i j (f q) (f r) ?_ ?_ hij
  · rw [List.getElem?_map, hq, Option.map_some]
  · rw [List.getElem?_map, hr, Option.map_some]

/-! ## Counting processes -/

/-- A process changes: every count loses the old one and gains the new one. -/
theorem countP_set_add (f : α → Bool) (hp : procs[i]? = some p) (p' : α) :
    (procs.set i p').countP f + (if f p then 1 else 0) =
      procs.countP f + (if f p' then 1 else 0) := by
  obtain ⟨hi, hget⟩ := List.getElem?_eq_some_iff.mp hp
  have hset := List.countP_set (p := f) (a := p') hi
  rw [hget] at hset
  have hpos : (if f p then 1 else 0) ≤ procs.countP f := by
    split
    · rename_i hf
      exact List.countP_pos_iff.mpr ⟨p, List.mem_of_getElem? hp, hf⟩
    · omega
  omega

/-- What processes have together does not change where the process has the same. -/
theorem filterMap_set_of_eq {β : Type*} {f : α → Option β} (hp : procs[i]? = some p)
    (hf : f p' = f p) : (procs.set i p').filterMap f = procs.filterMap f := by
  have hmap : (procs.set i p').map f = procs.map f := by
    rw [List.map_set, hf]
    refine List.ext_getElem? fun j => ?_
    rw [List.getElem?_set]
    split
    · rename_i hij
      subst hij
      rw [List.getElem?_map, hp, if_pos (by simpa using (List.getElem?_eq_some_iff.mp hp).1)]
      rfl
    · rfl
  have hjoined := congrArg (List.filterMap id) hmap
  rwa [List.filterMap_map, List.filterMap_map, Function.id_comp] at hjoined

/-- What only a process that holds the lock alone can have, that process has. -/
theorem filterMap_set_alone {β : Type*} {f : α → Option β} (h : Exclusion hold procs)
    (hp : procs[i]? = some p) (halone : hold p = .alone)
    (hf : ∀ q, f q ≠ none → hold q = .alone) (p' : α) :
    (procs.set i p').filterMap f = (f p').toList := by
  have hnone : ∀ (j : Nat) (q : α), procs[j]? = some q → j ≠ i → f q = none := by
    intro j q hq hne
    by_contra hsome
    have hfree := h i j p q hp hq (Ne.symm hne) halone
    rw [hf q hsome] at hfree
    cases hfree
  have hi := (List.getElem?_eq_some_iff.mp hp).1
  rw [List.set_eq_take_append_cons_drop, if_pos hi, List.filterMap_append, List.filterMap_cons]
  have hbefore : (procs.take i).filterMap f = [] := by
    refine List.filterMap_eq_nil_iff.mpr fun q hq => ?_
    obtain ⟨j, hj, hget⟩ := List.mem_take_iff_getElem.mp hq
    exact hnone j q (List.getElem?_eq_some_iff.mpr ⟨by omega, hget⟩) (by omega)
  have hafter : (procs.drop (i + 1)).filterMap f = [] := by
    refine List.filterMap_eq_nil_iff.mpr fun q hq => ?_
    obtain ⟨j, hj⟩ := List.mem_iff_getElem?.mp hq
    rw [List.getElem?_drop] at hj
    exact hnone _ q hj (by omega)
  rw [hbefore, hafter]
  cases f p' <;> rfl

end CartoLive.Lib
