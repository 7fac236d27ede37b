import Mathlib.Data.List.Basic
import Mathlib.Data.List.Nodup

/-!
# Leaving out copies

A loop that leaves out what repeats an earlier item, by three tests in turn. It records each
item under a test once the item has passed it, so that an item that fails a later test has
already been recorded under the earlier ones. Lists of items are latest first, so that what is
behind an item came before it.

An item is to be shown when it copies no earlier item that is to be shown. The loop says why it
leaves an item out; that reason is always an item that is shown just when no item repeats a
leading item that is not to be shown (`only_copies_iff`).
-/

namespace CartoLive.Lib

universe u v

/-- How an item repeats an earlier one, which comes first. -/
structure CopyTests (α : Type u) where
  packet : α → α → Bool
  display : α → α → Bool
  text : α → α → Bool
  /-- Whether the first test records an item before the others are made, or only when the item
  is shown. -/
  eager : Bool

/-- What has been recorded under each test. -/
structure CopyMemory (α : Type u) where
  packet : List α
  display : List α
  text : List α

namespace CopyTests

variable {α : Type u} (T : CopyTests α)

def copies (e x : α) : Bool := T.packet e x || T.display e x || T.text e x

/-! ## The loop -/

/-- The recorded item that an item is left out for. -/
def reason (m : CopyMemory α) (x : α) : Option α :=
  (m.packet.find? fun e => T.packet e x).or
    ((m.display.find? fun e => T.display e x).or (m.text.find? fun e => T.text e x))

def next (m : CopyMemory α) (x : α) : CopyMemory α :=
  if m.packet.any fun e => T.packet e x then m
  else if m.display.any fun e => T.display e x then
    { m with packet := if T.eager then x :: m.packet else m.packet }
  else if m.text.any fun e => T.text e x then
    { m with packet := if T.eager then x :: m.packet else m.packet, display := x :: m.display }
  else { packet := x :: m.packet, display := x :: m.display, text := x :: m.text }

def memory : List α → CopyMemory α
  | [] => { packet := [], display := [], text := [] }
  | x :: before => T.next (memory before) x

/-- Every item with the reason for which it is left out, if it is. -/
def verdicts : List α → List (α × Option α)
  | [] => []
  | x :: before => (x, T.reason (T.memory before) x) :: verdicts before

/-- The items that are not left out. -/
def shown (items : List α) : List α :=
  (T.verdicts items).filterMap fun verdict => if verdict.2.isNone then some verdict.1 else none

/-- What is left out is a copy of what is shown, and is left out for it. -/
def OnlyCopies (items : List α) : Prop :=
  ∀ x e, (x, some e) ∈ T.verdicts items → e ∈ T.shown items ∧ T.copies e x = true

/-! ## What is to be shown -/

/-- The items that copy no earlier item that is to be shown. -/
def toShow : List α → List α
  | [] => []
  | x :: before =>
    if (toShow before).any fun e => T.copies e x then toShow before else x :: toShow before

/-- The items that the first test compares with. -/
def firsts : List α → List α
  | [] => []
  | x :: before =>
    if T.eager then
      if (firsts before).any fun e => T.packet e x then firsts before else x :: firsts before
    else T.toShow (x :: before)

/-- The items that are new to the first two tests. -/
def leaders : List α → List α
  | [] => []
  | x :: before =>
    if ((T.firsts before).any fun e => T.packet e x) ||
        (leaders before).any fun e => T.display e x then leaders before
    else x :: leaders before

/-- The latest first that an item repeats, and the latest leader if there is no such first, are
to be shown. -/
def RepeatsShown (x : α) (before : List α) : Prop :=
  (∀ e, (T.firsts before).find? (fun e => T.packet e x) = some e → e ∈ T.toShow before) ∧
    ((T.firsts before).find? (fun e => T.packet e x) = none →
      ∀ e, (T.leaders before).find? (fun e => T.display e x) = some e → e ∈ T.toShow before)

/-- Every item repeats only leading items that are to be shown. -/
def Orderly (items : List α) : Prop :=
  ∀ x before, x :: before <:+ items → T.RepeatsShown x before

/-! ## What the loop records -/

variable {T}

theorem any_eq_false_iff_find? {l : List α} {p : α → Bool} :
    l.any p = false ↔ l.find? p = none := by
  rw [List.any_eq_false, List.find?_eq_none]

theorem reason_eq_some {m : CopyMemory α} {x e : α} (h : T.reason m x = some e) :
    T.copies e x = true ∧ (e ∈ m.packet ∨ e ∈ m.display ∨ e ∈ m.text) := by
  unfold reason at h
  rcases Option.or_eq_some_iff.mp h with hpacket | ⟨-, hrest⟩
  · have hcopy := List.find?_some hpacket
    exact ⟨by simp [copies, hcopy], Or.inl (List.mem_of_find?_eq_some hpacket)⟩
  rcases Option.or_eq_some_iff.mp hrest with hdisplay | ⟨-, htext⟩
  · have hcopy := List.find?_some hdisplay
    exact ⟨by simp [copies, hcopy], Or.inr (Or.inl (List.mem_of_find?_eq_some hdisplay))⟩
  · have hcopy := List.find?_some htext
    exact ⟨by simp [copies, hcopy], Or.inr (Or.inr (List.mem_of_find?_eq_some htext))⟩

theorem reason_eq_none_iff {m : CopyMemory α} {x : α} :
    T.reason m x = none ↔ (m.packet.any fun e => T.packet e x) = false ∧
      (m.display.any fun e => T.display e x) = false ∧ (m.text.any fun e => T.text e x) = false := by
  rw [any_eq_false_iff_find?, any_eq_false_iff_find?, any_eq_false_iff_find?, reason,
    Option.or_eq_none_iff, Option.or_eq_none_iff]

theorem isNone_reason (m : CopyMemory α) (x : α) :
    (T.reason m x).isNone = !((m.packet.any fun e => T.packet e x) ||
      (m.display.any fun e => T.display e x) || m.text.any fun e => T.text e x) := by
  rw [Bool.eq_iff_iff, Option.isNone_iff_eq_none, reason_eq_none_iff]
  simp only [Bool.not_eq_true', Bool.or_eq_false_iff, and_assoc]

/-- Only an item that is shown is recorded under the last test, and it is under the others. -/
theorem next_of_reason_none {m : CopyMemory α} {x : α} (h : T.reason m x = none) :
    T.next m x = { packet := x :: m.packet, display := x :: m.display, text := x :: m.text } := by
  obtain ⟨hpacket, hdisplay, htext⟩ := reason_eq_none_iff.mp h
  simp only [next, hpacket, hdisplay, htext, Bool.false_eq_true, if_false]

theorem text_next_of_reason {m : CopyMemory α} {x e : α} (h : T.reason m x = some e) :
    (T.next m x).text = m.text := by
  have hnot : ¬ ((m.packet.any fun e => T.packet e x) = false ∧
      (m.display.any fun e => T.display e x) = false ∧
      (m.text.any fun e => T.text e x) = false) := by
    rw [← reason_eq_none_iff, h]
    exact Option.some_ne_none e
  unfold next
  split
  · rfl
  split
  · rfl
  split
  · rfl
  · simp_all

theorem display_next (m : CopyMemory α) (x : α) :
    (T.next m x).display =
      if (m.packet.any fun e => T.packet e x) || m.display.any fun e => T.display e x then
        m.display
      else x :: m.display := by
  unfold next
  cases m.packet.any fun e => T.packet e x with
  | true => rfl
  | false =>
    cases m.display.any fun e => T.display e x with
    | true => rfl
    | false => cases m.text.any fun e => T.text e x <;> rfl

theorem packet_next_of_eager (heager : T.eager = true) (m : CopyMemory α) (x : α) :
    (T.next m x).packet =
      if m.packet.any fun e => T.packet e x then m.packet else x :: m.packet := by
  unfold next
  rw [heager]
  cases m.packet.any fun e => T.packet e x with
  | true => rfl
  | false =>
    cases m.display.any fun e => T.display e x with
    | true => rfl
    | false => cases m.text.any fun e => T.text e x <;> rfl

theorem packet_next_of_lazy (heager : T.eager = false) {m : CopyMemory α} {x e : α}
    (h : T.reason m x = some e) : (T.next m x).packet = m.packet := by
  cases hp : m.packet.any fun e => T.packet e x with
  | true => simp only [next, hp, if_true]
  | false =>
    cases hd : m.display.any fun e => T.display e x with
    | true => simp [next, hp, hd, heager]
    | false =>
      cases ht : m.text.any fun e => T.text e x with
      | true => simp [next, hp, hd, ht, heager]
      | false =>
        rw [reason_eq_none_iff.mpr ⟨hp, hd, ht⟩] at h
        cases h

theorem next_grows (m : CopyMemory α) (x : α) :
    ((T.next m x).packet = m.packet ∨ (T.next m x).packet = x :: m.packet) ∧
      ((T.next m x).display = m.display ∨ (T.next m x).display = x :: m.display) := by
  constructor
  · cases heager : T.eager with
    | true =>
      rw [packet_next_of_eager heager]
      exact (ite_eq_or_eq _ _ _)
    | false =>
      cases h : T.reason m x with
      | none => exact Or.inr (by rw [next_of_reason_none h])
      | some e => exact Or.inl (packet_next_of_lazy heager h)
  · rw [display_next]
    exact ite_eq_or_eq _ _ _

/-- What has been recorded came before, in the same order. -/
theorem memory_sublist (items : List α) :
    (T.memory items).packet.Sublist items ∧ (T.memory items).display.Sublist items ∧
      (T.memory items).text.Sublist items := by
  induction items with
  | nil => exact ⟨List.Sublist.refl [], List.Sublist.refl [], List.Sublist.refl []⟩
  | cons x before ih =>
    obtain ⟨hpacket, hdisplay, htext⟩ := ih
    obtain ⟨hp, hd⟩ := next_grows (T := T) (T.memory before) x
    refine ⟨?_, ?_, ?_⟩
    · rcases hp with hp | hp <;> rw [memory, hp]
      · exact hpacket.cons x
      · exact hpacket.cons_cons x
    · rcases hd with hd | hd <;> rw [memory, hd]
      · exact hdisplay.cons x
      · exact hdisplay.cons_cons x
    · cases h : T.reason (T.memory before) x with
      | none =>
        rw [memory, next_of_reason_none h]
        exact htext.cons_cons x
      | some e =>
        rw [memory, text_next_of_reason h]
        exact htext.cons x

theorem mem_of_recorded {items : List α} {e : α}
    (h : e ∈ (T.memory items).packet ∨ e ∈ (T.memory items).display ∨
      e ∈ (T.memory items).text) : e ∈ items := by
  obtain ⟨hpacket, hdisplay, htext⟩ := memory_sublist (T := T) items
  rcases h with h | h | h
  · exact hpacket.subset h
  · exact hdisplay.subset h
  · exact htext.subset h

theorem text_subset (items : List α) :
    (T.memory items).text ⊆ (T.memory items).packet ∧
      (T.memory items).text ⊆ (T.memory items).display := by
  induction items with
  | nil => exact ⟨List.Subset.refl [], List.Subset.refl []⟩
  | cons x before ih =>
    cases h : T.reason (T.memory before) x with
    | none =>
      rw [memory, next_of_reason_none h]
      exact ⟨List.cons_subset_cons x ih.1, List.cons_subset_cons x ih.2⟩
    | some e =>
      obtain ⟨hp, hd⟩ := next_grows (T := T) (T.memory before) x
      rw [memory, text_next_of_reason h]
      constructor
      · rcases hp with hp | hp <;> rw [hp]
        · exact ih.1
        · exact List.subset_cons_of_subset x ih.1
      · rcases hd with hd | hd <;> rw [hd]
        · exact ih.2
        · exact List.subset_cons_of_subset x ih.2

/-- The items that are shown are those recorded under the last test. -/
theorem shown_eq (items : List α) : T.shown items = (T.memory items).text := by
  induction items with
  | nil => rfl
  | cons x before ih =>
    unfold shown at ih ⊢
    rw [verdicts]
    cases h : T.reason (T.memory before) x with
    | none =>
      simp only [List.filterMap_cons, Option.isNone_none, if_true, ih, memory,
        next_of_reason_none h]
    | some e =>
      simp only [List.filterMap_cons, Option.isNone_some, Bool.false_eq_true, if_false, ih, memory,
        text_next_of_reason h]

theorem mem_of_reason {items : List α} {x e : α} (h : (x, some e) ∈ T.verdicts items) :
    e ∈ items ∧ T.copies e x = true := by
  induction items with
  | nil => exact absurd h List.not_mem_nil
  | cons y before ih =>
    rcases List.mem_cons.mp h with heq | hmem
    · obtain ⟨rfl, hreason⟩ := Prod.mk.inj heq
      obtain ⟨hcopy, hrecorded⟩ := reason_eq_some hreason.symm
      exact ⟨List.mem_cons_of_mem x (mem_of_recorded hrecorded), hcopy⟩
    · exact ⟨List.mem_cons_of_mem y (ih hmem).1, (ih hmem).2⟩

/-! ## When the loop does what it is to do -/

/-- The records are the items that lead and those that are to be shown. -/
structure Agrees (T : CopyTests α) (items : List α) : Prop where
  packet : (T.memory items).packet = T.firsts items
  display : (T.memory items).display = T.leaders items
  text : (T.memory items).text = T.toShow items

theorem firsts_of_lazy (h : T.eager = false) (items : List α) :
    T.firsts items = T.toShow items := by
  cases items with
  | nil => rfl
  | cons x before => rw [firsts, h, if_neg Bool.false_ne_true]

theorem toShow_cons_of_copy {x : α} {before : List α} {e : α}
    (hcopy : T.copies e x = true) (hshow : e ∈ T.toShow before) :
    T.toShow (x :: before) = T.toShow before := by
  rw [toShow, if_pos (List.any_eq_true.mpr ⟨e, hshow, hcopy⟩)]

/-- The step of the loop, when the reason for leaving an item out is to be shown. -/
theorem Agrees.cons {x : α} {before : List α} (h : Agrees T before)
    (hreason : ∀ e, T.reason (T.memory before) x = some e → e ∈ T.toShow before) :
    Agrees T (x :: before) := by
  cases hx : T.reason (T.memory before) x with
  | none =>
    obtain ⟨hpacket, hdisplay, htext⟩ := reason_eq_none_iff.mp hx
    obtain ⟨hsub, hsub'⟩ := text_subset (T := T) before
    have hnew : ((T.toShow before).any fun e => T.copies e x) = false := by
      rw [List.any_eq_false] at hpacket hdisplay htext ⊢
      intro e he
      rw [← h.text] at he
      have hp := hpacket e (hsub he)
      have hd := hdisplay e (hsub' he)
      have ht := htext e he
      simp_all [copies]
    have hshow : T.toShow (x :: before) = x :: T.toShow before := by
      rw [toShow, hnew, if_neg Bool.false_ne_true]
    rw [h.packet] at hpacket
    rw [h.display] at hdisplay
    refine ⟨?_, ?_, ?_⟩ <;> rw [memory, next_of_reason_none hx]
    · cases heager : T.eager with
      | true => rw [h.packet, firsts, heager, if_pos rfl, hpacket, if_neg Bool.false_ne_true]
      | false => rw [firsts_of_lazy heager, hshow, h.packet, firsts_of_lazy heager]
    · rw [h.display, leaders, hpacket, hdisplay, Bool.or_false, if_neg Bool.false_ne_true]
    · rw [hshow, h.text]
  | some e =>
    have hshow := toShow_cons_of_copy (reason_eq_some hx).1 (hreason e hx)
    refine ⟨?_, ?_, ?_⟩
    · cases heager : T.eager with
      | true => rw [memory, packet_next_of_eager heager, firsts, heager, if_pos rfl, h.packet]
      | false =>
        rw [memory, packet_next_of_lazy heager hx, h.packet, firsts_of_lazy heager,
          firsts_of_lazy heager, hshow]
    · rw [memory, display_next, leaders, h.packet, h.display]
    · rw [memory, text_next_of_reason hx, hshow, h.text]

theorem repeatsShown_iff {x : α} {before : List α} (h : Agrees T before) :
    T.RepeatsShown x before ↔
      ∀ e, T.reason (T.memory before) x = some e → e ∈ T.toShow before := by
  unfold RepeatsShown reason
  rw [h.packet, h.display, h.text]
  constructor
  · rintro ⟨hpacket, hdisplay⟩ e he
    rcases Option.or_eq_some_iff.mp he with hfound | ⟨hnone, hrest⟩
    · exact hpacket e hfound
    rcases Option.or_eq_some_iff.mp hrest with hfound | ⟨-, hfound⟩
    · exact hdisplay hnone e hfound
    · exact List.mem_of_find?_eq_some hfound
  · intro hreason
    refine ⟨fun e he => hreason e (by rw [he, Option.some_or]), fun hnone e he => ?_⟩
    exact hreason e (by rw [hnone, Option.none_or, he, Option.some_or])

theorem orderly_cons_iff {x : α} {before : List α} :
    T.Orderly (x :: before) ↔ T.Orderly before ∧ T.RepeatsShown x before := by
  constructor
  · intro h
    exact ⟨fun y rest hsuffix => h y rest (hsuffix.trans (List.suffix_cons x before)),
      h x before List.suffix_rfl⟩
  · rintro ⟨hbefore, hx⟩ y rest hsuffix
    rcases List.suffix_cons_iff.mp hsuffix with heq | hsuffix
    · cases heq
      exact hx
    · exact hbefore y rest hsuffix

theorem onlyCopies_cons_iff {x : α} {before : List α} (hnew : x ∉ before) :
    T.OnlyCopies (x :: before) ↔ T.OnlyCopies before ∧
      ∀ e, T.reason (T.memory before) x = some e → e ∈ T.shown before := by
  have hshown : ∀ e ∈ before, (e ∈ T.shown (x :: before) ↔ e ∈ T.shown before) := by
    intro e he
    rw [shown_eq, shown_eq]
    cases h : T.reason (T.memory before) x with
    | none =>
      rw [memory, next_of_reason_none h, List.mem_cons]
      exact or_iff_right fun heq => hnew (heq ▸ he)
    | some e' => rw [memory, text_next_of_reason h]
  constructor
  · intro h
    constructor
    · intro y e hmem
      have hboth := h y e (List.mem_cons_of_mem _ hmem)
      exact ⟨(hshown e (mem_of_reason hmem).1).mp hboth.1, hboth.2⟩
    · intro e he
      have hmem : (x, some e) ∈ T.verdicts (x :: before) := by
        rw [verdicts, he]
        exact List.mem_cons_self
      exact (hshown e (mem_of_recorded (reason_eq_some he).2)).mp (h x e hmem).1
  · rintro ⟨hbefore, hx⟩ y e hmem
    rw [verdicts] at hmem
    rcases List.mem_cons.mp hmem with heq | hmem
    · obtain ⟨rfl, hreason⟩ := Prod.mk.inj heq
      obtain ⟨hcopy, hrecorded⟩ := reason_eq_some hreason.symm
      exact ⟨(hshown e (mem_of_recorded hrecorded)).mpr (hx e hreason.symm), hcopy⟩
    · exact ⟨(hshown e (mem_of_reason hmem).1).mpr (hbefore y e hmem).1, (hbefore y e hmem).2⟩

/-- Items are left out for copies that are shown just when none repeats a leading item that is
not to be shown. -/
theorem only_copies_iff {items : List α} (hnodup : items.Nodup) :
    T.OnlyCopies items ↔ T.Orderly items := by
  have hboth : (T.OnlyCopies items ↔ T.Orderly items) ∧ (T.Orderly items → Agrees T items) := by
    induction items with
    | nil =>
      refine ⟨⟨fun _ x before h => ?_, fun _ x e h => ?_⟩, fun _ => ⟨rfl, rfl, rfl⟩⟩
      · exact absurd (List.suffix_nil.mp h) (List.cons_ne_nil x before)
      · exact absurd h List.not_mem_nil
    | cons x before ih =>
      obtain ⟨hnew, hrest⟩ := List.nodup_cons.mp hnodup
      obtain ⟨hiff, hagrees⟩ := ih hrest
      have hstep : ∀ h : Agrees T before, (T.RepeatsShown x before ↔
          ∀ e, T.reason (T.memory before) x = some e → e ∈ T.shown before) := by
        intro h
        rw [shown_eq, h.text]
        exact repeatsShown_iff h
      constructor
      · rw [onlyCopies_cons_iff hnew, orderly_cons_iff, hiff]
        exact and_congr_right fun h => (hstep (hagrees h)).symm
      · intro h
        obtain ⟨hbefore, hx⟩ := orderly_cons_iff.mp h
        exact (hagrees hbefore).cons ((repeatsShown_iff (hagrees hbefore)).mp hx)
  exact hboth.1

end CopyTests

/-! ## Records of keys and times -/

section LookUp

variable {κ : Type u} [DecidableEq κ]

/-- A look-up in a map from keys to times, the last entry of a key being the first in its list:
nothing when the time found is near, and else the map with the new time. -/
def lookUpNear (near : Int → Bool) (seen : List (κ × Int)) (k : κ) (at' : Int) :
    Option (List (κ × Int)) :=
  match seen.find? fun entry => entry.1 = k with
  | some (_, previousAt) => if near previousAt then none else some ((k, at') :: seen)
  | none => some ((k, at') :: seen)

variable {α : Type v} (key : α → κ) (time : α → Int) (blank : κ)

/-- The entries of recorded items. -/
def entriesOf (items : List α) : List (κ × Int) :=
  (items.filter fun e => key e ≠ blank).map fun e => (key e, time e)

variable {key time blank}

/-- When a time is near all later ones are, the look-up finds an item with the key that is near,
if there is any. -/
theorem lookUpNear_entriesOf {near : Int → Bool} {items : List α} {k : κ} (hk : k ≠ blank)
    (hsorted : items.Pairwise fun later earlier =>
      near (time earlier) = true → near (time later) = true) (at' : Int) :
    lookUpNear near (entriesOf key time blank items) k at' =
      if items.any fun e => key e = k && near (time e) then none
      else some ((k, at') :: entriesOf key time blank items) := by
  have hfind : (entriesOf key time blank items).find? (fun entry => entry.1 = k) =
      (items.find? fun e => key e = k).map fun e => (key e, time e) := by
    rw [entriesOf, List.find?_map, List.find?_filter]
    congr 2
    funext e
    by_cases he : key e = k
    · simp [he, hk]
    · simp [he]
  unfold lookUpNear
  rw [hfind]
  cases hitem : items.find? fun e => key e = k with
  | none =>
    have hnone : (items.any fun e => key e = k && near (time e)) = false := by
      rw [List.any_eq_false]
      intro e he
      have := List.find?_eq_none.mp hitem e he
      simp_all
    rw [hnone, if_neg Bool.false_ne_true]
    rfl
  | some e =>
    have hkey : key e = k := by simpa using List.find?_some hitem
    have hany : (items.any fun e => key e = k && near (time e)) = near (time e) := by
      obtain ⟨-, before, rest, rfl, hbefore⟩ := List.find?_eq_some_iff_append.mp hitem
      have hrest := (List.pairwise_cons.mp (List.pairwise_append.mp hsorted).2.1).1
      rw [Bool.eq_iff_iff, List.any_eq_true]
      constructor
      · rintro ⟨e', he', hnear⟩
        simp only [Bool.and_eq_true, decide_eq_true_eq] at hnear
        rcases List.mem_append.mp he' with hin | hin
        · have := hbefore e' hin
          simp_all
        · rcases List.mem_cons.mp hin with rfl | hin
          · exact hnear.2
          · exact hrest e' hin hnear.2
      · intro hnear
        refine ⟨e, List.mem_append_right _ List.mem_cons_self, ?_⟩
        simp [hkey, hnear]
    rw [hany]
    rfl

end LookUp

end CartoLive.Lib
