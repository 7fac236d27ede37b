import Mathlib.Data.List.Basic
import Mathlib.Data.List.Induction
import Mathlib.Data.List.Nodup
import Mathlib.Logic.Function.Basic

/-!
# Records found by a key

Lists of records in which a record is found by its key, alone (`get`) or with the help
of a map from keys to positions (`Indexes`): what replacing, appending, putting in
front and laying two lists over each other do to what is found.
-/

namespace CartoLive.Lib.Keyed

universe u v w

variable {α : Type u} {κ : Type v} [DecidableEq κ] {key : α → κ}

/-- The record found under a key. -/
def get (key : α → κ) (k : κ) (rows : List α) : Option α := rows.find? fun x => key x = k

theorem key_of_get {k : κ} {rows : List α} {x : α} (h : get key k rows = some x) : key x = k := by
  simpa using List.find?_some h

theorem mem_of_get {k : κ} {rows : List α} {x : α} (h : get key k rows = some x) : x ∈ rows :=
  List.mem_of_find?_eq_some h

theorem get_eq_none_iff {k : κ} {rows : List α} : get key k rows = none ↔ k ∉ rows.map key := by
  simp [get]

@[simp] theorem get_nil (k : κ) : get key k [] = none := rfl

theorem get_cons (k : κ) (x : α) (rows : List α) :
    get key k (x :: rows) = if key x = k then some x else get key k rows := by
  unfold get
  by_cases h : key x = k <;> simp [h]

/-- Where every record has a key of its own, it is found under it. -/
theorem get_of_mem {rows : List α} (h : (rows.map key).Nodup) {x : α} (hx : x ∈ rows) :
    get key (key x) rows = some x := by
  induction rows with
  | nil => cases hx
  | cons y rows ih =>
    rw [List.map_cons, List.nodup_cons] at h
    rw [get_cons]
    rcases List.mem_cons.mp hx with rfl | hx
    · exact if_pos rfl
    · have hne : key y ≠ key x := fun heq => h.1 (heq ▸ List.mem_map_of_mem hx)
      rw [if_neg hne, ih h.2 hx]

theorem get_append (k : κ) (xs ys : List α) :
    get key k (xs ++ ys) = (get key k xs).or (get key k ys) := List.find?_append

/-- A change that keeps the keys changes what is found. -/
theorem get_map {β : Type w} {key' : β → κ} {f : α → β} (hf : ∀ x, key' (f x) = key x) (k : κ)
    (rows : List α) : get key' k (rows.map f) = (get key k rows).map f := by
  induction rows with
  | nil => rfl
  | cons x rows ih =>
    rw [List.map_cons, get_cons, get_cons, ih, hf]
    by_cases h : key x = k
    · rw [if_pos h, if_pos h]
      rfl
    · rw [if_neg h, if_neg h]

/-- Leaving out keys. -/
theorem get_filter_key (p : κ → Bool) (k : κ) (rows : List α) :
    get key k (rows.filter fun x => p (key x)) = if p k then get key k rows else none := by
  induction rows with
  | nil => simp
  | cons x rows ih =>
    rw [List.filter_cons]
    by_cases hx : key x = k
    · subst hx
      split
      · rw [get_cons, if_pos rfl, get_cons, if_pos rfl]
      · rename_i hp
        rw [ih, if_neg hp]
    · rw [get_cons k x rows, if_neg hx, ← ih]
      split
      · rw [get_cons, if_neg hx]
      · rfl

/-- What is found, and the records of the other keys, are all the records. -/
theorem perm_cons_filter_of_get {k : κ} {rows : List α} {x : α} (h : (rows.map key).Nodup)
    (hget : get key k rows = some x) : rows.Perm (x :: rows.filter fun y => key y ≠ k) := by
  induction rows with
  | nil => cases hget
  | cons y rows ih =>
    rw [List.map_cons, List.nodup_cons] at h
    rw [get_cons] at hget
    by_cases hy : key y = k
    · rw [if_pos hy] at hget
      obtain rfl := Option.some.inj hget
      have hrest : rows.filter (fun z => key z ≠ k) = rows := by
        refine List.filter_eq_self.mpr fun z hz => decide_eq_true fun hk => h.1 ?_
        rw [hy, ← hk]
        exact List.mem_map_of_mem hz
      rw [List.filter_cons_of_neg (by simpa using hy), hrest]
    · rw [if_neg hy] at hget
      rw [List.filter_cons_of_pos (by simpa using hy)]
      exact ((ih h.2 hget).cons y).trans (List.Perm.swap x y _)

/-- A record put in front of the others, in the place of the one with its key. -/
theorem get_putFront (k : κ) (x : α) (rows : List α) :
    get key k (x :: rows.filter fun y => key y ≠ key x) =
      if key x = k then some x else get key k rows := by
  rw [get_cons]
  by_cases h : key x = k
  · rw [if_pos h, if_pos h]
  · rw [if_neg h, if_neg h, get_filter_key fun k => decide (k ≠ key x)]
    exact if_pos (decide_eq_true (Ne.symm h))

/-! ## Entries of a map -/

/-- A key is set: in its place, or at the end. -/
def setEntry (entries : List (κ × α)) (key : κ) (value : α) :
    List (κ × α) :=
  if key ∈ entries.map Prod.fst then
    entries.map fun entry => if entry.1 = key then (key, value) else entry
  else entries ++ [(key, value)]

theorem keys_setEntry_of_mem {entries : List (κ × α)} {key : κ}
    (h : key ∈ entries.map Prod.fst) (value : α) :
    (setEntry entries key value).map Prod.fst = entries.map Prod.fst := by
  rw [setEntry, if_pos h, List.map_map]
  refine List.map_congr_left fun entry _ => ?_
  show (if entry.1 = key then (key, value) else entry).1 = entry.1
  split
  · rename_i hkey
    exact hkey.symm
  · rfl

theorem nodup_setEntry {entries : List (κ × α)}
    (h : (entries.map Prod.fst).Nodup) (key : κ) (value : α) :
    ((setEntry entries key value).map Prod.fst).Nodup := by
  by_cases hkey : key ∈ entries.map Prod.fst
  · rwa [keys_setEntry_of_mem hkey]
  · rw [setEntry, if_neg hkey, List.map_append, List.map_singleton, List.nodup_append]
    refine ⟨h, List.nodup_singleton _, ?_⟩
    rintro other hother same hsame rfl
    have hsame' : other = key := List.mem_singleton.mp hsame
    exact hkey (hsame' ▸ hother)

theorem mem_keys_setEntry (entries : List (κ × α)) (key other : κ) (value : α) :
    other ∈ (setEntry entries key value).map Prod.fst ↔
      other ∈ entries.map Prod.fst ∨ other = key := by
  by_cases hkey : key ∈ entries.map Prod.fst
  · rw [keys_setEntry_of_mem hkey]
    exact ⟨Or.inl, fun h => h.elim id fun h => h ▸ hkey⟩
  · rw [setEntry, if_neg hkey, List.map_append, List.mem_append, List.map_singleton,
      List.mem_singleton]

/-- An entry of a map in which a key has been set. -/
theorem mem_setEntry {entries : List (κ × α)} {key : κ} {value : α} {entry : κ × α}
    (h : entry ∈ setEntry entries key value) :
    entry = (key, value) ∨ entry ∈ entries ∧ entry.1 ≠ key := by
  unfold setEntry at h
  split at h
  · obtain ⟨other, hother, heq⟩ := List.mem_map.mp h
    split at heq
    · exact Or.inl heq.symm
    · rename_i hne
      exact Or.inr ⟨heq ▸ hother, heq ▸ hne⟩
  · rename_i hkey
    rcases List.mem_append.mp h with h | h
    · exact Or.inr ⟨h, fun heq => hkey (heq ▸ List.mem_map_of_mem h)⟩
    · exact Or.inl (List.mem_singleton.mp h)

/-- Setting a key of a map of which the values are changed. -/
theorem map_setEntry {β : Type u} (f : α → β) (entries : List (κ × α)) (key : κ) (value : α) :
    (setEntry entries key value).map (fun entry => (entry.1, f entry.2)) =
      setEntry (entries.map fun entry => (entry.1, f entry.2)) key (f value) := by
  have hkeys : (entries.map fun entry => (entry.1, f entry.2)).map Prod.fst =
      entries.map Prod.fst := by
    rw [List.map_map]
    rfl
  unfold setEntry
  rw [hkeys]
  by_cases hmem : key ∈ entries.map Prod.fst
  · rw [if_pos hmem, if_pos hmem, List.map_map, List.map_map]
    refine List.map_congr_left fun entry _ => ?_
    show (_, _) = ite _ _ _
    dsimp only [Function.comp_apply]
    split <;> rfl
  · rw [if_neg hmem, if_neg hmem, List.map_append, List.map_singleton]

/-- The entry of a key after a key is set. -/
theorem get_setEntry (entries : List (κ × α)) (key other : κ) (value : α) :
    get Prod.fst other (setEntry entries key value) =
      if key = other then some (key, value) else get Prod.fst other entries := by
  unfold setEntry
  split
  · rename_i hmem
    induction entries with
    | nil => cases hmem
    | cons entry entries ih =>
      rw [List.map_cons, get_cons, get_cons]
      by_cases hkey : entry.1 = key
      · rw [if_pos hkey]
        by_cases hother : key = other
        · rw [if_pos hother, if_pos hother]
        · rw [if_neg hother, if_neg hother, if_neg (hkey ▸ hother)]
          by_cases hrest : key ∈ entries.map Prod.fst
          · rw [ih hrest, if_neg hother]
          · rw [List.map_congr_left (g := id), List.map_id]
            intro e he
            exact if_neg fun h => hrest (List.mem_map.mpr ⟨e, he, h⟩)
      · have hrest : key ∈ entries.map Prod.fst :=
          (List.mem_cons.mp hmem).resolve_left fun h => hkey h.symm
        rw [if_neg hkey, ih hrest]
        by_cases hentry : entry.1 = other
        · rw [if_pos hentry, if_pos hentry, if_neg fun h => hkey (hentry.trans h.symm)]
        · rw [if_neg hentry, if_neg hentry]
  · rw [get_append]
    rename_i hmem
    by_cases hother : key = other
    · subst hother
      rw [if_pos rfl, get_eq_none_iff.mpr hmem, get_cons, if_pos rfl]
      rfl
    · rw [if_neg hother, get_cons, if_neg hother, get_nil, Option.or_none]

/-! ## The first record of each key -/

/-- The records whose key has not been seen before. -/
def firstOfEach (key : α → κ) : List κ → List α → List α
  | _, [] => []
  | seen, x :: rows =>
    if key x ∈ seen then firstOfEach key seen rows
    else x :: firstOfEach key (key x :: seen) rows

theorem mem_of_mem_firstOfEach {seen : List κ} {rows : List α} {x : α}
    (h : x ∈ firstOfEach key seen rows) : x ∈ rows ∧ key x ∉ seen := by
  induction rows generalizing seen with
  | nil => exact absurd h List.not_mem_nil
  | cons y rows ih =>
    rw [firstOfEach] at h
    split at h
    · exact (ih h).imp_left (List.mem_cons_of_mem y)
    · rename_i hy
      rcases List.mem_cons.mp h with rfl | h
      · exact ⟨List.mem_cons_self, hy⟩
      · exact (ih h).imp (List.mem_cons_of_mem y) fun hx hmem => hx (List.mem_cons_of_mem _ hmem)

theorem get_firstOfEach {k : κ} {seen : List κ} (hk : k ∉ seen) (rows : List α) :
    get key k (firstOfEach key seen rows) = get key k rows := by
  induction rows generalizing seen with
  | nil => rfl
  | cons x rows ih =>
    rw [firstOfEach, get_cons]
    by_cases hx : key x = k
    · rw [if_neg (hx ▸ hk), get_cons, if_pos hx, if_pos hx]
    · rw [if_neg hx]
      split
      · exact ih hk
      · rw [get_cons, if_neg hx]
        exact ih fun h => (List.mem_cons.mp h).elim (fun h => hx h.symm) hk

theorem firstOfEach_eq_filter {seen : List κ} {rows : List α} (h : (rows.map key).Nodup) :
    firstOfEach key seen rows = rows.filter fun x => key x ∉ seen := by
  induction rows generalizing seen with
  | nil => rfl
  | cons x rows ih =>
    rw [List.map_cons, List.nodup_cons] at h
    rw [firstOfEach, List.filter_cons]
    by_cases hx : key x ∈ seen
    · rw [if_pos hx, ih h.2]
      simp [hx]
    · rw [if_neg hx, ih h.2]
      simp only [hx, not_false_eq_true, decide_true, if_true]
      congr 1
      refine List.filter_congr fun y hy => ?_
      have hne : key y ≠ key x := fun heq => h.1 (heq ▸ List.mem_map_of_mem hy)
      simp [hne]

/-- The records of the first list, and those of the second that are not among them. -/
theorem firstOfEach_append {rows more : List α} (h : (rows.map key).Nodup)
    (hmore : (more.map key).Nodup) :
    firstOfEach key [] (rows ++ more) =
      rows ++ more.filter fun x => key x ∉ rows.map key := by
  have hseen : ∀ (seen : List κ) (first : List α), (first.map key).Nodup →
      (∀ x ∈ first, key x ∉ seen) → firstOfEach key seen (first ++ more) =
        first ++ more.filter fun x => key x ∉ seen ++ first.map key := by
    intro seen first
    induction first generalizing seen with
    | nil =>
      intro _ _
      rw [List.nil_append, firstOfEach_eq_filter hmore]
      simp
    | cons x first ih =>
      intro hnodup hfresh
      rw [List.map_cons, List.nodup_cons] at hnodup
      rw [List.cons_append, firstOfEach, if_neg (hfresh x List.mem_cons_self),
        ih (key x :: seen) hnodup.2 fun y hy => ?_]
      · rw [List.cons_append]
        congr 2
        refine List.filter_congr fun y _ => ?_
        rw [decide_eq_decide]
        simp only [List.mem_cons, List.mem_append, List.map_cons]
        tauto
      · rw [List.mem_cons, not_or]
        exact ⟨fun heq => hnodup.1 (heq ▸ List.mem_map_of_mem hy),
          hfresh y (List.mem_cons_of_mem _ hy)⟩
  simpa using hseen [] rows h fun x _ => List.not_mem_nil

/-! ## A map from keys to positions -/

/-- `place` says where the record of each key is. -/
def Indexes (key : α → κ) (place : κ → Option Nat) (rows : List α) : Prop :=
  ∀ k i, place k = some i ↔ ∃ x, rows[i]? = some x ∧ key x = k

variable {place : κ → Option Nat} {rows : List α}

omit [DecidableEq κ] in
theorem Indexes.nil : Indexes key (fun _ => none) [] := by
  intro k i
  simp

/-- What is found is what stands at the position of the key. -/
theorem Indexes.get_eq (h : Indexes key place rows) (k : κ) :
    get key k rows = (place k).bind fun i => rows[i]? := by
  cases hplace : place k with
  | none =>
    refine get_eq_none_iff.mpr fun hmem => ?_
    obtain ⟨x, hx, hkey⟩ := List.mem_map.mp hmem
    obtain ⟨i, hi⟩ := List.getElem?_of_mem hx
    rw [(h k i).mpr ⟨x, hi, hkey⟩] at hplace
    cases hplace
  | some i =>
    obtain ⟨x, hx, hkey⟩ := (h k i).mp hplace
    cases hget : get key k rows with
    | none =>
      exact absurd (List.mem_map.mpr ⟨x, List.mem_of_getElem? hx, hkey⟩) (get_eq_none_iff.mp hget)
    | some y =>
      obtain ⟨j, hj⟩ := List.getElem?_of_mem (mem_of_get hget)
      have hplaceY : place k = some j := (h k j).mpr ⟨y, hj, key_of_get hget⟩
      rw [hplace] at hplaceY
      cases hplaceY
      exact hj.symm

theorem Indexes.get_eq_some (h : Indexes key place rows) {k : κ} {i : Nat} {x : α}
    (hplace : place k = some i) (hx : rows[i]? = some x) : get key k rows = some x := by
  rw [h.get_eq, hplace]
  exact hx

theorem Indexes.place_eq_none (h : Indexes key place rows) {k : κ} :
    place k = none ↔ get key k rows = none := by
  rw [h.get_eq]
  cases hplace : place k with
  | none => simp
  | some i =>
    obtain ⟨x, hx, -⟩ := (h k i).mp hplace
    simp [hx]

/-- A record replaced by one of the same key. -/
theorem Indexes.set (h : Indexes key place rows) {i : Nat} {x y : α} (hx : rows[i]? = some x)
    (hy : key y = key x) :
    Indexes key place (rows.set i y) ∧
      ∀ k, get key k (rows.set i y) = if key x = k then some y else get key k rows := by
  have hlen : i < rows.length := (List.getElem?_eq_some_iff.mp hx).1
  have hindexes : Indexes key place (rows.set i y) := by
    intro k j
    rw [h k j, List.getElem?_set]
    by_cases hij : i = j
    · subst hij
      rw [if_pos rfl, if_pos hlen, hx]
      simp [hy]
    · rw [if_neg hij]
  refine ⟨hindexes, fun k => ?_⟩
  rw [hindexes.get_eq]
  by_cases hk : key x = k
  · rw [if_pos hk, (h k i).mpr ⟨x, hx, hk⟩]
    simp [hlen]
  · rw [if_neg hk, h.get_eq]
    cases hplace : place k with
    | none => rfl
    | some j =>
      have hij : i ≠ j := by
        rintro rfl
        obtain ⟨z, hz, hkey⟩ := (h k i).mp hplace
        rw [hx] at hz
        cases hz
        exact hk hkey
      simp [List.getElem?_set, hij]

theorem getElem?_append_singleton {rows : List α} {x y : α} {i : Nat}
    (h : (rows ++ [x])[i]? = some y) : rows[i]? = some y ∨ i = rows.length ∧ y = x := by
  rw [List.getElem?_append] at h
  split at h
  · exact Or.inl h
  · obtain ⟨hlen, hy⟩ := List.getElem?_eq_some_iff.mp h
    have hi : i - rows.length = 0 := by simpa using hlen
    refine Or.inr ⟨by omega, ?_⟩
    simpa using hy.symm

/-- A record of a new key at the end. -/
theorem Indexes.append (h : Indexes key place rows) {x : α} (hx : place (key x) = none) :
    Indexes key (Function.update place (key x) (some rows.length)) (rows ++ [x]) := by
  intro k i
  by_cases hk : k = key x
  · subst hk
    rw [Function.update_self]
    constructor
    · rintro ⟨⟩
      exact ⟨x, by simp, rfl⟩
    · rintro ⟨y, hy, hkey⟩
      rcases getElem?_append_singleton hy with hy | ⟨rfl, -⟩
      · rw [(h (key x) i).mpr ⟨y, hy, hkey⟩] at hx
        cases hx
      · rfl
  · rw [Function.update_of_ne hk, h k i]
    constructor
    · rintro ⟨y, hy, hkey⟩
      have hi : i < rows.length := (List.getElem?_eq_some_iff.mp hy).1
      exact ⟨y, by rw [List.getElem?_append_left hi, hy], hkey⟩
    · rintro ⟨y, hy, hkey⟩
      rcases getElem?_append_singleton hy with hy | ⟨-, rfl⟩
      · exact ⟨y, hy, hkey⟩
      · exact absurd hkey.symm hk

omit [DecidableEq κ] in
/-- A change that keeps the keys keeps the positions. -/
theorem Indexes.map (h : Indexes key place rows) {f : α → α} (hf : ∀ x, key (f x) = key x) :
    Indexes key place (rows.map f) := by
  intro k i
  rw [h k i, List.getElem?_map]
  cases rows[i]? with
  | none => simp
  | some x => simp [hf]

/-- The map that is filled from the records in turn. -/
def placesFrom (key : α → κ) (start : Nat) (place : κ → Option Nat) :
    List α → κ → Option Nat
  | [] => place
  | x :: rows => placesFrom key (start + 1) (Function.update place (key x) (some start)) rows

theorem indexes_placesFrom {first rest : List α} (h : Indexes key place first)
    (hnodup : (rest.map key).Nodup) (hfresh : ∀ x ∈ rest, place (key x) = none) :
    Indexes key (placesFrom key first.length place rest) (first ++ rest) := by
  induction rest generalizing first place with
  | nil => simpa [placesFrom] using h
  | cons x rest ih =>
    rw [List.map_cons, List.nodup_cons] at hnodup
    have hnext := h.append (hfresh x List.mem_cons_self)
    have hrest := ih hnext hnodup.2 fun y hy => by
      have hne : key y ≠ key x := fun heq => hnodup.1 (heq ▸ List.mem_map_of_mem hy)
      rw [Function.update_of_ne hne]
      exact hfresh y (List.mem_cons_of_mem _ hy)
    simpa [placesFrom] using hrest

omit [DecidableEq κ] in
/-- Positions tell keys apart. -/
theorem Indexes.nodup (h : Indexes key place rows) : (rows.map key).Nodup := by
  refine List.nodup_iff_injective_getElem.mpr fun i j heq => ?_
  have hi : i.val < rows.length := by simpa using i.isLt
  have hj : j.val < rows.length := by simpa using j.isLt
  have hplace : ∀ {n : Nat} (hn : n < rows.length), place (key rows[n]) = some n := fun hn =>
    (h _ _).mpr ⟨_, List.getElem?_eq_getElem hn, rfl⟩
  have hkeys : key rows[i.val] = key rows[j.val] := by simpa using heq
  have hsame := hplace hi
  rw [hkeys, hplace hj] at hsame
  exact Fin.ext (Option.some.inj hsame).symm

omit [DecidableEq κ] in
/-- Two lists with the same positions have the same keys in the same order. -/
theorem Indexes.keys_eq {rows' : List α} (h : Indexes key place rows)
    (h' : Indexes key place rows') : rows.map key = rows'.map key := by
  have hkey : ∀ {a b : List α}, Indexes key place a → Indexes key place b → ∀ (i : Nat) (k : κ),
      (a.map key)[i]? = some k → (b.map key)[i]? = some k := by
    intro a b ha hb i k hk
    rw [List.getElem?_map, Option.map_eq_some_iff] at hk ⊢
    exact (hb k i).mp ((ha k i).mpr hk)
  refine List.ext_getElem? fun i => Option.ext fun k => ?_
  exact ⟨hkey h h' i k, hkey h' h i k⟩

/-- Records with keys of their own are known by the order of the keys and what is found. -/
theorem eq_of_keys_of_get {rows rows' : List α} (hkeys : rows.map key = rows'.map key)
    (hnodup : (rows.map key).Nodup) (hget : ∀ k, get key k rows = get key k rows') :
    rows = rows' := by
  induction rows generalizing rows' with
  | nil => exact (List.map_eq_nil_iff.mp hkeys.symm).symm
  | cons x rows ih =>
    cases rows' with
    | nil => cases hkeys
    | cons x' rows' =>
      rw [List.map_cons, List.map_cons] at hkeys
      obtain ⟨hkey, hrest⟩ := List.cons.inj hkeys
      rw [List.map_cons, List.nodup_cons] at hnodup
      have hfirst := hget (key x)
      rw [get_cons, get_cons, if_pos rfl, if_pos hkey.symm] at hfirst
      cases hfirst
      congr 1
      refine ih hrest hnodup.2 fun k => ?_
      by_cases hk : key x = k
      · subst hk
        rw [get_eq_none_iff.mpr hnodup.1, get_eq_none_iff.mpr (hrest ▸ hnodup.1)]
      · have hlater := hget k
        rwa [get_cons, get_cons, if_neg hk, if_neg (hkey ▸ hk)] at hlater

end CartoLive.Lib.Keyed
