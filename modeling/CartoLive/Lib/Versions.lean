import Mathlib.Data.List.Basic
import Mathlib.Data.List.Induction
import Mathlib.Data.List.Dedup
import Mathlib.Data.List.Nodup
import Mathlib.Order.Lattice

/-!
# Merging versions of keyed items

Items carry a key, a time stamp and a sequence number. A merge starts from one
list, later entries of a key replacing earlier ones, and lays another list over
it, an item winning over the one in place when its stamp is later, or equal with
at least its sequence. What the rules say: a merge invents nothing
(`mem_merge`), and every overlaid item is in the merge or has lost to an item of
its key that is at least as late (`exists_atLeast_of_mem_overlay`). Exactly, each
key gets the winner of its last base item and its overlaid items in turn
(`mem_merge_iff`).
-/

namespace CartoLive.Lib

universe u v

/-- How to look at an item: its key, its time stamp and its sequence number. -/
structure View (α : Type u) (κ : Type v) where
  key : α → κ
  stamp : α → Int
  seq : α → Int

namespace View

variable {α : Type u} {κ : Type v} (w : View α κ)

/-- `a` wins over `b`. -/
def AtLeast (a b : α) : Prop := w.stamp b < w.stamp a ∨ w.stamp a = w.stamp b ∧ w.seq b ≤ w.seq a

instance (a b : α) : Decidable (w.AtLeast a b) := by
  unfold AtLeast
  infer_instance

theorem AtLeast.refl (a : α) : w.AtLeast a a := Or.inr ⟨rfl, le_refl _⟩

theorem AtLeast.trans {w : View α κ} {a b c : α} (hab : w.AtLeast a b) (hbc : w.AtLeast b c) :
    w.AtLeast a c := by
  unfold AtLeast at *
  omega

variable [DecidableEq κ]

/-- Replace the first item of the same key, or append. -/
def upsert (item : α) : List α → List α
  | [] => [item]
  | x :: xs => if w.key x = w.key item then item :: xs else x :: upsert item xs

/-- Lay one item over a list. -/
def overlayOne (l : List α) (item : α) : List α :=
  match l.find? fun x => w.key x = w.key item with
  | none => w.upsert item l
  | some existing => if w.AtLeast item existing then w.upsert item l else l

/-- Start from `base` and lay `overlay` over it. -/
def merge (base overlay : List α) : List α :=
  overlay.foldl w.overlayOne (base.foldl (fun l item => w.upsert item l) [])

variable {w}

theorem mem_upsert {item x : α} {l : List α} (h : x ∈ w.upsert item l) : x = item ∨ x ∈ l := by
  induction l with
  | nil => exact Or.inl (List.mem_singleton.mp h)
  | cons y ys ih =>
    unfold upsert at h
    split at h
    · exact (List.mem_cons.mp h).imp_right (List.mem_cons_of_mem _)
    · rcases List.mem_cons.mp h with rfl | h
      · exact Or.inr List.mem_cons_self
      · exact (ih h).imp_right (List.mem_cons_of_mem _)

theorem item_mem_upsert (item : α) (l : List α) : item ∈ w.upsert item l := by
  induction l with
  | nil => exact List.mem_singleton_self item
  | cons y ys ih =>
    unfold upsert
    split
    · exact List.mem_cons_self
    · exact List.mem_cons_of_mem _ ih

/-- The item that an upsert takes out is the first of its key. -/
theorem mem_upsert_or_replaced (item : α) {x : α} {l : List α} (h : x ∈ l) :
    x ∈ w.upsert item l ∨ l.find? (fun y => w.key y = w.key item) = some x := by
  induction l with
  | nil => cases h
  | cons y ys ih =>
    unfold upsert
    by_cases hkey : w.key y = w.key item
    · rcases List.mem_cons.mp h with rfl | h
      · exact Or.inr (List.find?_cons_of_pos (decide_eq_true hkey))
      · exact Or.inl (by rw [if_pos hkey]; exact List.mem_cons_of_mem _ h)
    · rw [if_neg hkey]
      rcases List.mem_cons.mp h with rfl | h
      · exact Or.inl List.mem_cons_self
      · refine (ih h).imp (List.mem_cons_of_mem _) fun hfind => ?_
        rw [List.find?_cons_of_neg (by simpa using hkey)]
        exact hfind

theorem mem_overlayOne {item x : α} {l : List α} (h : x ∈ w.overlayOne l item) :
    x = item ∨ x ∈ l := by
  unfold overlayOne at h
  split at h
  · exact mem_upsert h
  · split at h
    · exact mem_upsert h
    · exact Or.inr h

/-- An item stays unless it loses to the overlaid one. -/
theorem overlayOne_keeps (item : α) {x : α} {l : List α} (h : x ∈ l) :
    x ∈ w.overlayOne l item ∨
      item ∈ w.overlayOne l item ∧ w.key item = w.key x ∧ w.AtLeast item x := by
  unfold overlayOne
  split
  · rename_i hnone
    refine (mem_upsert_or_replaced item h).imp_right fun hfind => ?_
    rw [hnone] at hfind
    cases hfind
  · rename_i existing hfound
    split
    · rename_i hwins
      refine (mem_upsert_or_replaced item h).imp_right fun hfind => ?_
      rw [hfound] at hfind
      cases hfind
      have hkey := List.find?_some hfound
      exact ⟨item_mem_upsert item l, (of_decide_eq_true hkey).symm, hwins⟩
    · exact Or.inl h

/-- The overlaid item is in, or something of its key is at least as late. -/
theorem overlayOne_admits (item : α) (l : List α) :
    ∃ x ∈ w.overlayOne l item, w.key x = w.key item ∧ w.AtLeast x item := by
  unfold overlayOne
  split
  · exact ⟨item, item_mem_upsert item l, rfl, AtLeast.refl w item⟩
  · rename_i existing hfound
    split
    · exact ⟨item, item_mem_upsert item l, rfl, AtLeast.refl w item⟩
    · rename_i hloses
      have hkey := List.find?_some hfound
      refine ⟨existing, List.mem_of_find?_eq_some hfound, of_decide_eq_true hkey, ?_⟩
      unfold AtLeast at *
      omega

/-- The fold over the overlay keeps, for every item, something at least as late. -/
theorem foldl_overlayOne_keeps (overlay : List α) {x : α} {l : List α} (h : x ∈ l) :
    ∃ y ∈ overlay.foldl w.overlayOne l, w.key y = w.key x ∧ w.AtLeast y x := by
  induction overlay generalizing x l with
  | nil => exact ⟨x, h, rfl, AtLeast.refl w x⟩
  | cons item rest ih =>
    rcases overlayOne_keeps (w := w) item h with hstays | ⟨hin, hkey, hwins⟩
    · exact ih hstays
    · obtain ⟨y, hy, hykey, hylate⟩ := ih hin
      exact ⟨y, hy, hykey.trans hkey, hylate.trans hwins⟩

theorem foldl_overlayOne_admits (overlay : List α) {x : α} (l : List α) (h : x ∈ overlay) :
    ∃ y ∈ overlay.foldl w.overlayOne l, w.key y = w.key x ∧ w.AtLeast y x := by
  induction overlay generalizing l with
  | nil => cases h
  | cons item rest ih =>
    rcases List.mem_cons.mp h with rfl | h
    · obtain ⟨z, hz, hzkey, hzlate⟩ := overlayOne_admits (w := w) x l
      obtain ⟨y, hy, hykey, hylate⟩ := foldl_overlayOne_keeps (w := w) rest hz
      exact ⟨y, hy, hykey.trans hzkey, hylate.trans hzlate⟩
    · exact ih _ h

theorem mem_foldl_overlayOne {overlay : List α} {x : α} {l : List α}
    (h : x ∈ overlay.foldl w.overlayOne l) : x ∈ l ∨ x ∈ overlay := by
  induction overlay generalizing l with
  | nil => exact Or.inl h
  | cons item rest ih =>
    rcases ih h with h | h
    · exact (mem_overlayOne h).symm.imp_right fun heq => by simp [heq]
    · exact Or.inr (List.mem_cons_of_mem _ h)

theorem mem_foldl_upsert {base : List α} {x : α} {l : List α}
    (h : x ∈ base.foldl (fun l item => w.upsert item l) l) : x ∈ l ∨ x ∈ base := by
  induction base generalizing l with
  | nil => exact Or.inl h
  | cons item rest ih =>
    rcases ih h with h | h
    · exact (mem_upsert h).symm.imp_right fun heq => by simp [heq]
    · exact Or.inr (List.mem_cons_of_mem _ h)

/-- A merge invents nothing. -/
theorem mem_merge {base overlay : List α} {x : α} (h : x ∈ w.merge base overlay) :
    x ∈ base ∨ x ∈ overlay := by
  rcases mem_foldl_overlayOne h with h | h
  · exact Or.inl ((mem_foldl_upsert h).resolve_left List.not_mem_nil)
  · exact Or.inr h

/-- Every overlaid item is in the merge or has lost to one of its key that is at
least as late. -/
theorem exists_atLeast_of_mem_overlay (base : List α) {overlay : List α} {x : α} (h : x ∈ overlay) :
    ∃ y ∈ w.merge base overlay, w.key y = w.key x ∧ w.AtLeast y x :=
  foldl_overlayOne_admits overlay _ h

/-! ## The winner of a key -/

/-- The item of a key in a list. -/
def get (l : List α) (k : κ) : Option α := l.find? fun x => w.key x = k

/-- What stands for a key after one more item of it. -/
def contend (best : Option α) (item : α) : Option α :=
  match best with
  | none => some item
  | some existing => if w.AtLeast item existing then some item else some existing

theorem get_upsert (item : α) (l : List α) (k : κ) :
    w.get (w.upsert item l) k = if w.key item = k then some item else w.get l k := by
  unfold get
  induction l with
  | nil =>
    unfold upsert
    by_cases hk : w.key item = k <;> simp [hk]
  | cons y ys ih =>
    unfold upsert
    by_cases hkey : w.key y = w.key item
    · rw [if_pos hkey]
      by_cases hk : w.key item = k
      · simp [hk]
      · simp [hk, hkey]
    · rw [if_neg hkey]
      by_cases hy : w.key y = k
      · rw [if_neg fun hk => hkey (hy.trans hk.symm)]
        simp [hy]
      · simpa [hy] using ih

theorem get_overlayOne (l : List α) (item : α) (k : κ) :
    w.get (w.overlayOne l item) k =
      if w.key item = k then w.contend (w.get l k) item else w.get l k := by
  by_cases hk : w.key item = k
  · rw [if_pos hk]
    subst hk
    unfold overlayOne contend
    show w.get (match w.get l (w.key item) with
      | none => w.upsert item l
      | some existing => if w.AtLeast item existing then w.upsert item l else l) _ = _
    cases hget : w.get l (w.key item) with
    | none => simp [get_upsert]
    | some existing =>
      dsimp only
      split
      · simp [get_upsert]
      · exact hget
  · rw [if_neg hk]
    unfold overlayOne
    split
    · rw [get_upsert, if_neg hk]
    · split
      · rw [get_upsert, if_neg hk]
      · rfl

theorem get_foldl_upsert (base : List α) (k : κ) :
    w.get (base.foldl (fun l item => w.upsert item l) []) k =
      (base.filter fun x => w.key x = k).getLast? := by
  induction base using List.reverseRecOn with
  | nil => rfl
  | append_singleton base item ih =>
    rw [List.foldl_append, List.filter_append]
    show w.get (w.upsert item _) k = _
    rw [get_upsert, ih]
    by_cases hk : w.key item = k <;> simp [hk]

theorem get_foldl_overlayOne (overlay l : List α) (k : κ) :
    w.get (overlay.foldl w.overlayOne l) k =
      (overlay.filter fun x => w.key x = k).foldl w.contend (w.get l k) := by
  induction overlay generalizing l with
  | nil => rfl
  | cons item rest ih =>
    show w.get (rest.foldl w.overlayOne (w.overlayOne l item)) k = _
    rw [ih, get_overlayOne]
    by_cases hk : w.key item = k <;> simp [hk]

theorem nodup_upsert {item : α} {l : List α} (h : (l.map w.key).Nodup) :
    ((w.upsert item l).map w.key).Nodup := by
  induction l with
  | nil => simp [upsert]
  | cons y ys ih =>
    obtain ⟨hy, hys⟩ := List.nodup_cons.mp h
    unfold upsert
    split
    · rename_i hkey
      exact List.nodup_cons.mpr ⟨hkey ▸ hy, hys⟩
    · rename_i hkey
      refine List.nodup_cons.mpr ⟨fun hmem => ?_, ih hys⟩
      obtain ⟨x, hx, hkx⟩ := List.mem_map.mp hmem
      rcases mem_upsert hx with rfl | hx
      · exact hkey hkx.symm
      · exact hy (List.mem_map.mpr ⟨x, hx, hkx⟩)

theorem nodup_overlayOne {item : α} {l : List α} (h : (l.map w.key).Nodup) :
    ((w.overlayOne l item).map w.key).Nodup := by
  unfold overlayOne
  split
  · exact nodup_upsert h
  · split
    · exact nodup_upsert h
    · exact h

theorem nodup_merge (base overlay : List α) : ((w.merge base overlay).map w.key).Nodup := by
  have hbase : ((base.foldl (fun l item => w.upsert item l) []).map w.key).Nodup := by
    induction base using List.reverseRecOn with
    | nil => simp
    | append_singleton base item ih =>
      rw [List.foldl_append]
      exact nodup_upsert ih
  unfold merge
  induction overlay using List.reverseRecOn with
  | nil => exact hbase
  | append_singleton overlay item ih =>
    rw [List.foldl_append]
    exact nodup_overlayOne ih

theorem mem_keys_upsert {item : α} {l : List α} {k : κ} :
    k ∈ (w.upsert item l).map w.key ↔ k = w.key item ∨ k ∈ l.map w.key := by
  induction l with
  | nil => simp [upsert]
  | cons x xs ih =>
    unfold upsert
    split
    · rename_i hkey
      simp [hkey]
    · rw [List.map_cons, List.mem_cons, ih, List.map_cons, List.mem_cons]
      tauto

theorem mem_keys_overlayOne {item : α} {l : List α} {k : κ} :
    k ∈ (w.overlayOne l item).map w.key ↔ k = w.key item ∨ k ∈ l.map w.key := by
  unfold overlayOne
  split
  · exact mem_keys_upsert
  · rename_i existing hfound
    split
    · exact mem_keys_upsert
    · have hkey : w.key existing = w.key item := by simpa using List.find?_some hfound
      have hmem : w.key item ∈ l.map w.key :=
        List.mem_map.mpr ⟨existing, List.mem_of_find?_eq_some hfound, hkey⟩
      exact ⟨.inr, fun h => h.elim (fun heq => heq ▸ hmem) id⟩

omit [DecidableEq κ] in
/-- The keys of a fold whose steps add the key of their item. -/
theorem mem_keys_foldl {step : List α → α → List α}
    (hstep : ∀ l item k, k ∈ (step l item).map w.key ↔ k = w.key item ∨ k ∈ l.map w.key)
    {items l : List α} {k : κ} :
    k ∈ (items.foldl step l).map w.key ↔ k ∈ (l ++ items).map w.key := by
  induction items generalizing l with
  | nil => rw [List.append_nil, List.foldl_nil]
  | cons item items ih =>
    rw [List.foldl_cons, ih, List.map_append, List.mem_append, hstep, List.map_append,
      List.map_cons, List.mem_append, List.mem_cons]
    tauto

/-- The keys of a merge are those of the two lists. -/
theorem mem_keys_merge {base overlay : List α} {k : κ} :
    k ∈ (w.merge base overlay).map w.key ↔ k ∈ (base ++ overlay).map w.key := by
  unfold merge
  rw [mem_keys_foldl fun _ _ _ => mem_keys_overlayOne, List.map_append, List.mem_append,
    mem_keys_foldl fun _ _ _ => mem_keys_upsert, List.nil_append, List.map_append, List.mem_append]

/-- A merge has one item for each key. -/
theorem length_merge (base overlay : List α) :
    (w.merge base overlay).length = ((base ++ overlay).map w.key).dedup.length := by
  have hperm : ((w.merge base overlay).map w.key).Perm ((base ++ overlay).map w.key).dedup :=
    (List.perm_ext_iff_of_nodup (nodup_merge base overlay) (List.nodup_dedup _)).mpr fun k => by
      rw [mem_keys_merge, List.mem_dedup]
  have hlength := hperm.length_eq
  rwa [List.length_map] at hlength

theorem mem_iff_get {l : List α} (h : (l.map w.key).Nodup) {x : α} :
    x ∈ l ↔ w.get l (w.key x) = some x := by
  unfold get
  constructor
  · intro hx
    cases hget : l.find? fun y => w.key y = w.key x with
    | none => exact absurd (decide_eq_true rfl) (List.find?_eq_none.mp hget x hx)
    | some y =>
      have hkey : w.key y = w.key x := by simpa using List.find?_some hget
      exact congrArg some (List.inj_on_of_nodup_map h (List.mem_of_find?_eq_some hget) hx hkey)
  · exact List.mem_of_find?_eq_some

/-- **What a merge holds**: for each key the winner of its last base item and of
its overlaid items, one after the other. -/
theorem mem_merge_iff {base overlay : List α} {x : α} :
    x ∈ w.merge base overlay ↔
      (overlay.filter fun y => w.key y = w.key x).foldl w.contend
        (base.filter fun y => w.key y = w.key x).getLast? = some x := by
  rw [mem_iff_get (nodup_merge base overlay), ← get_foldl_upsert, ← get_foldl_overlayOne]
  rfl

/-- `a` is strictly newer than `b`. -/
def Newer (w : View α κ) (a b : α) : Prop :=
  w.stamp b < w.stamp a ∨ w.stamp a = w.stamp b ∧ w.seq b < w.seq a

instance (a b : α) : Decidable (w.Newer a b) := by
  unfold Newer
  infer_instance

omit [DecidableEq κ] in
theorem not_newer {a b : α} : ¬ w.Newer a b ↔ w.AtLeast b a := by
  unfold Newer AtLeast
  omega

omit [DecidableEq κ] in
/-- The winner is one of the contenders and at least as late as every one. -/
theorem foldl_contend_spec (b : α) (l : List α) :
    ∃ r ∈ b :: l, l.foldl w.contend (some b) = some r ∧ ∀ y ∈ b :: l, w.AtLeast r y := by
  induction l using List.reverseRecOn with
  | nil => exact ⟨b, by simp, rfl, by simp [AtLeast.refl]⟩
  | append_singleton l item ih =>
    obtain ⟨r, hr, hfold, hlate⟩ := ih
    rw [List.foldl_append, hfold]
    show ∃ r' ∈ _, (if w.AtLeast item r then some item else some r) = some r' ∧ _
    by_cases hwins : w.AtLeast item r
    · refine ⟨item, by simp, if_pos hwins, fun y hy => ?_⟩
      rw [← List.cons_append, List.mem_append, List.mem_singleton] at hy
      rcases hy with hy | rfl
      · exact hwins.trans (hlate y hy)
      · exact AtLeast.refl w y
    · refine ⟨r, ?_, if_neg hwins, fun y hy => ?_⟩
      · rw [← List.cons_append]
        exact List.mem_append_left _ hr
      · rw [← List.cons_append, List.mem_append, List.mem_singleton] at hy
        rcases hy with hy | rfl
        · exact hlate y hy
        · unfold AtLeast at *
          omega

omit [DecidableEq κ] in
/-- The first contender wins when none of the others is newer, and the last of
those that are as late is the first again. -/
theorem foldl_contend_eq_iff (v : α) (l : List α) :
    l.foldl w.contend (some v) = some v ↔
      (∀ y ∈ l, ¬ w.Newer y v) ∧
        ∀ y, (l.filter fun x => w.AtLeast x v).getLast? = some y → y = v := by
  induction l using List.reverseRecOn with
  | nil => simp
  | append_singleton l item ih =>
    obtain ⟨r, hr, hfold, hlate⟩ := foldl_contend_spec (w := w) v l
    rw [List.foldl_append, hfold, List.filter_append]
    show (if w.AtLeast item r then some item else some r) = some v ↔ _
    rw [hfold] at ih
    by_cases htie : w.AtLeast item v
    · rw [show [item].filter (fun x => decide (w.AtLeast x v)) = [item] by simp [htie],
        List.getLast?_concat]
      constructor
      · intro h
        by_cases hwins : w.AtLeast item r
        · rw [if_pos hwins] at h
          cases h
          refine ⟨fun y hy => ?_, fun y hy => (Option.some.inj hy).symm⟩
          rcases List.mem_append.mp hy with hy | hy
          · exact not_newer.mpr (hwins.trans (hlate y (List.mem_cons_of_mem _ hy)))
          · rw [List.mem_singleton.mp hy]
            exact not_newer.mpr (AtLeast.refl w _)
        · rw [if_neg hwins] at h
          cases h
          exact absurd htie hwins
      · rintro ⟨hnewer, hlast⟩
        obtain rfl := hlast item rfl
        refine if_pos ?_
        rcases List.mem_cons.mp hr with rfl | hr
        · exact htie
        · exact not_newer.mp (hnewer r (List.mem_append_left _ hr))
    · rw [show [item].filter (fun x => decide (w.AtLeast x v)) = [] by simp [htie],
        List.append_nil]
      have hloses : ¬ w.AtLeast item r := fun h => htie (h.trans (hlate v (by simp)))
      rw [if_neg hloses, ih]
      refine and_congr_left fun _ => ⟨fun h y hy => ?_, fun h y hy => h y (List.mem_append_left _ hy)⟩
      rcases List.mem_append.mp hy with hy | hy
      · exact h y hy
      · rw [List.mem_singleton.mp hy]
        exact not_newer.mpr (by unfold AtLeast at *; omega)

end View

end CartoLive.Lib
