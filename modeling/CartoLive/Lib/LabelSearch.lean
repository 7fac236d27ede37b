import Mathlib.Data.List.Basic
import Mathlib.Data.List.Count
import Mathlib.Logic.Function.Basic

/-!
# Label-correcting search

A search that keeps one label for each node. A label that is taken from the queue is extended
to its successors; a successor replaces the label of its node where there is none, or where it
is better, and is then put in the queue, which is rearranged.

A label that is replaced is replaced by a better one, so that a tree of labels without an
infinite branch is searched in finitely many steps (`exists_run`). At the end every successor
of a stored label has been offered to its node, and none of them is better than what the node
has (`run_spec`).
-/

namespace CartoLive.Lib

universe u v

structure LabelSearch (κ : Type u) (γ : Type v) where
  node : γ → κ
  successors : γ → List γ
  /-- Whether a label replaces another of its node. -/
  better : γ → γ → Bool
  /-- The order in which the queue is kept. -/
  arrange : List γ → List γ

namespace LabelSearch

structure State (κ : Type u) (γ : Type v) where
  best : κ → Option γ
  queue : List γ

variable {κ : Type u} {γ : Type v} (S : LabelSearch κ γ)

/-- Labels of one node are compared by a strict order, and rearranging loses none. -/
structure Lawful : Prop where
  irrefl : ∀ a, S.better a a = false
  trans : ∀ a b c, S.node a = S.node b → S.node b = S.node c →
    S.better a b = true → S.better b c = true → S.better a c = true
  arrange_perm : ∀ queue, (S.arrange queue).Perm queue

/-- Whether a label would be stored. -/
def beats (best : κ → Option γ) (c : γ) : Bool :=
  match best (S.node c) with
  | none => true
  | some stored => S.better c stored

/-- What is stored is filed under its own node. -/
def Filed (best : κ → Option γ) : Prop := ∀ k c, best k = some c → S.node c = k

variable {S} in
theorem beats_eq_false_iff {best : κ → Option γ} {c : γ} :
    S.beats best c = false ↔
      ∃ stored, best (S.node c) = some stored ∧ S.better c stored = false := by
  unfold beats
  cases best (S.node c) with
  | none => simp
  | some stored => simp

/-- The labels of the tree at a depth. -/
def level (start : γ) : Nat → List γ
  | 0 => [start]
  | depth + 1 => (level start depth).flatMap S.successors

def tree (start : γ) (depth : Nat) : List γ :=
  (List.range (depth + 1)).flatMap (S.level start)

variable {S} in
/-- A tree that ends at a depth is closed under successors. -/
theorem mem_tree_of_successor {start next c : γ} {depth : Nat}
    (hend : S.level start (depth + 1) = []) (hc : c ∈ S.tree start depth)
    (hnext : next ∈ S.successors c) : next ∈ S.tree start depth := by
  obtain ⟨d, hd, hc⟩ := List.mem_flatMap.mp hc
  have hmem : next ∈ S.level start (d + 1) := List.mem_flatMap.mpr ⟨c, hc, hnext⟩
  refine List.mem_flatMap.mpr ⟨d + 1, List.mem_range.mpr ?_, hmem⟩
  have hlt := List.mem_range.mp hd
  by_contra hge
  obtain rfl : d = depth := by omega
  rw [hend] at hmem
  cases hmem

variable [DecidableEq κ]

/-- A label is stored and put in the queue. -/
def store (s : State κ γ) (next : γ) : State κ γ where
  best := Function.update s.best (S.node next) (some next)
  queue := S.arrange (s.queue ++ [next])

def offer (s : State κ γ) (next : γ) : State κ γ :=
  match s.best (S.node next) with
  | none => S.store s next
  | some existing => if S.better next existing then S.store s next else s

def expand (s : State κ γ) (current : γ) : State κ γ := (S.successors current).foldl S.offer s

/-- The labels at the end, unless the steps run out. -/
def run : Nat → State κ γ → Option (κ → Option γ)
  | _, ⟨best, []⟩ => some best
  | 0, ⟨_, _ :: _⟩ => none
  | steps + 1, ⟨best, current :: queue⟩ => run steps (S.expand ⟨best, queue⟩ current)

def initial (start : γ) : State κ γ where
  best := Function.update (fun _ => none) (S.node start) (some start)
  queue := [start]

/-! ## What is stored -/

variable {S} {s : State κ γ} {start next c : γ} {k : κ} {P busy : γ → Prop}

theorem offer_eq (s : State κ γ) (next : γ) :
    S.offer s next = if S.beats s.best next then S.store s next else s := by
  unfold offer beats
  cases s.best (S.node next) with
  | none => rfl
  | some stored => rfl

/-- What is found after a label is stored. -/
theorem of_best_store (h : (S.store s next).best k = some c) :
    S.node next = k ∧ c = next ∨ s.best k = some c := by
  by_cases hk : k = S.node next
  · subst hk
    have hself : (S.store s next).best (S.node next) = some next := Function.update_self ..
    exact Or.inl ⟨rfl, Option.some.inj (h.symm.trans hself)⟩
  · have hother : (S.store s next).best k = s.best k := Function.update_of_ne hk ..
    exact Or.inr (hother.symm.trans h)

theorem of_best_initial (h : (S.initial start).best k = some c) : S.node start = k ∧ c = start := by
  rcases of_best_store (s := ⟨fun _ => none, []⟩) h with h | h
  · exact h
  · cases h

theorem best_store_of_node (h : S.node c = S.node next) :
    (S.store s next).best (S.node c) = some next := by
  rw [h]
  exact Function.update_self ..

theorem best_store_of_ne (h : k ≠ S.node next) : (S.store s next).best k = s.best k :=
  Function.update_of_ne h ..

theorem mem_queue_store (hS : S.Lawful) :
    c ∈ (S.store s next).queue ↔ c ∈ s.queue ∨ c = next := by
  rw [store, (hS.arrange_perm _).mem_iff, List.mem_append, List.mem_singleton]

theorem length_queue_store (hS : S.Lawful) :
    (S.store s next).queue.length = s.queue.length + 1 := by
  rw [store, (hS.arrange_perm _).length_eq, List.length_append, List.length_singleton]

theorem Filed.store (h : S.Filed s.best) (next : γ) : S.Filed (S.store s next).best := by
  intro k c hc
  rcases of_best_store hc with ⟨hk, rfl⟩ | hc
  · exact hk
  · exact h k c hc

theorem beats_store_self (hS : S.Lawful) (next : γ) :
    S.beats (S.store s next).best next = false :=
  beats_eq_false_iff.mpr ⟨next, best_store_of_node rfl, hS.irrefl next⟩

/-- Labels get better: what would not be stored is not stored later. -/
theorem beats_store (hS : S.Lawful) (hfiled : S.Filed s.best) (hnext : S.beats s.best next = true)
    (h : S.beats s.best c = false) : S.beats (S.store s next).best c = false := by
  obtain ⟨stored, hstored, hc⟩ := beats_eq_false_iff.mp h
  by_cases hnode : S.node c = S.node next
  · refine beats_eq_false_iff.mpr ⟨next, best_store_of_node hnode, ?_⟩
    -- were `c` better than `next`, it would be better than the label that `next` replaces
    rw [Bool.eq_false_iff]
    intro hcn
    have hbetter : S.better next stored = true := by
      rw [beats, ← hnode, hstored] at hnext
      exact hnext
    have hsame : S.node next = S.node stored := by rw [hfiled _ _ hstored, hnode]
    exact absurd (hc.symm.trans (hS.trans c next stored hnode hsame hcn hbetter))
      Bool.false_ne_true
  · exact beats_eq_false_iff.mpr ⟨stored, by rw [best_store_of_ne hnode, hstored], hc⟩

/-! ## What the search keeps -/

/-- What holds of a state while the labels that are `busy` are being extended. -/
structure Sound (S : LabelSearch κ γ) (start : γ) (P busy : γ → Prop) (s : State κ γ) : Prop where
  filed : S.Filed s.best
  stored : ∀ k c, s.best k = some c → P c
  queued : ∀ c ∈ s.queue, P c
  started : S.beats s.best start = false
  closed : ∀ k c, s.best k = some c → busy c ∨ c ∈ s.queue ∨
    ∀ next ∈ S.successors c, S.beats s.best next = false

theorem sound_initial (hS : S.Lawful) (hstart : P start) :
    S.Sound start P busy (S.initial start) where
  filed := by
    intro k c hc
    obtain ⟨hk, rfl⟩ := of_best_initial hc
    exact hk
  stored := by
    intro k c hc
    obtain ⟨-, rfl⟩ := of_best_initial hc
    exact hstart
  queued := by
    intro c hc
    exact List.mem_singleton.mp hc ▸ hstart
  started := by
    have hself : (S.initial start).best (S.node start) = some start := by simp [initial]
    exact beats_eq_false_iff.mpr ⟨start, hself, hS.irrefl start⟩
  closed := by
    intro k c hc
    exact Or.inr (Or.inl (List.mem_singleton.mpr (of_best_initial hc).2))

theorem Sound.store (hS : S.Lawful) (h : S.Sound start P busy s) (hP : P next)
    (hnext : S.beats s.best next = true) : S.Sound start P busy (S.store s next) where
  filed := h.filed.store next
  stored := by
    intro k c hc
    rcases of_best_store hc with ⟨-, rfl⟩ | hc
    · exact hP
    · exact h.stored k c hc
  queued := by
    intro c hc
    rcases (mem_queue_store hS).mp hc with hc | rfl
    · exact h.queued c hc
    · exact hP
  started := beats_store hS h.filed hnext h.started
  closed := by
    intro k c hc
    rcases of_best_store hc with ⟨-, rfl⟩ | hc
    · exact Or.inr (Or.inl ((mem_queue_store hS).mpr (Or.inr rfl)))
    · rcases h.closed k c hc with hbusy | hqueue | hclosed
      · exact Or.inl hbusy
      · exact Or.inr (Or.inl ((mem_queue_store hS).mpr (Or.inl hqueue)))
      · exact Or.inr (Or.inr fun n hn => beats_store hS h.filed hnext (hclosed n hn))

theorem Sound.offer (hS : S.Lawful) (h : S.Sound start P busy s) (hP : P next) :
    S.Sound start P busy (S.offer s next) := by
  rw [offer_eq]
  split
  · rename_i hnext
    exact h.store hS hP hnext
  · exact h

/-- An offered label would not be stored again. -/
theorem beats_offer_self (hS : S.Lawful) (s : State κ γ) (next : γ) :
    S.beats (S.offer s next).best next = false := by
  rw [offer_eq]
  split
  · exact beats_store_self hS next
  · rename_i hnext
    exact Bool.eq_false_iff.mpr hnext

theorem beats_offer (hS : S.Lawful) (hfiled : S.Filed s.best) (h : S.beats s.best c = false)
    (next : γ) : S.beats (S.offer s next).best c = false := by
  rw [offer_eq]
  split
  · rename_i hnext
    exact beats_store hS hfiled hnext h
  · exact h

theorem Sound.foldl_offer (hS : S.Lawful) (nexts : List γ) (h : S.Sound start P busy s)
    (hP : ∀ next ∈ nexts, P next) :
    S.Sound start P busy (nexts.foldl S.offer s) ∧
      (∀ next ∈ nexts, S.beats (nexts.foldl S.offer s).best next = false) ∧
      ∀ c, S.beats s.best c = false → S.beats (nexts.foldl S.offer s).best c = false := by
  induction nexts generalizing s with
  | nil => exact ⟨h, nofun, fun _ hc => hc⟩
  | cons next nexts ih =>
    have hoffer := h.offer hS (hP next List.mem_cons_self)
    obtain ⟨hsound, hoffered, hkept⟩ := ih hoffer fun n hn => hP n (List.mem_cons_of_mem next hn)
    refine ⟨hsound, fun n hn => ?_, fun c hc => hkept c (beats_offer hS h.filed hc next)⟩
    rcases List.mem_cons.mp hn with rfl | hn
    · exact hkept _ (beats_offer_self hS s _)
    · exact hoffered n hn

/-- The label at the front of the queue is extended. -/
theorem Sound.expand (hS : S.Lawful) (hP : ∀ c, P c → ∀ next ∈ S.successors c, P next)
    {best : κ → Option γ} {current : γ} {queue : List γ}
    (h : S.Sound start P (fun _ => False) ⟨best, current :: queue⟩) :
    S.Sound start P (fun _ => False) (S.expand ⟨best, queue⟩ current) := by
  have hbusy : S.Sound start P (fun c => c = current) ⟨best, queue⟩ :=
    { filed := h.filed
      stored := h.stored
      queued := fun c hc => h.queued c (List.mem_cons_of_mem current hc)
      started := h.started
      closed := fun k c hc => by
        rcases h.closed k c hc with hno | hqueue | hclosed
        · exact hno.elim
        · exact (List.mem_cons.mp hqueue).imp id Or.inl
        · exact Or.inr (Or.inr hclosed) }
  have hcurrent := h.queued current List.mem_cons_self
  obtain ⟨hsound, hoffered, -⟩ := hbusy.foldl_offer hS _ (hP current hcurrent)
  refine { hsound with closed := fun k c hc => ?_ }
  rcases hsound.closed k c hc with rfl | hrest
  · exact Or.inr (Or.inr hoffered)
  · exact Or.inr hrest

theorem Sound.run (hS : S.Lawful) (hP : ∀ c, P c → ∀ next ∈ S.successors c, P next) {steps : Nat}
    {best : κ → Option γ} (h : S.Sound start P (fun _ => False) s)
    (hrun : S.run steps s = some best) : S.Sound start P (fun _ => False) ⟨best, []⟩ := by
  induction steps generalizing s with
  | zero =>
    obtain ⟨labels, queue⟩ := s
    cases queue with
    | nil =>
      obtain rfl := Option.some.inj hrun
      exact h
    | cons current queue => cases hrun
  | succ steps ih =>
    obtain ⟨labels, queue⟩ := s
    cases queue with
    | nil =>
      obtain rfl := Option.some.inj hrun
      exact h
    | cons current queue => exact ih (h.expand hS hP) hrun

/-- At the end: the labels are filed under their nodes and have what the successors of a label
with it have, the node of the start has a label not worse than it, and no successor of a label
is better than the label of its node. -/
theorem run_spec (hS : S.Lawful) (hstart : P start)
    (hP : ∀ c, P c → ∀ next ∈ S.successors c, P next) {steps : Nat} {best : κ → Option γ}
    (hrun : S.run steps (S.initial start) = some best) :
    (∀ k c, best k = some c → S.node c = k ∧ P c) ∧ S.beats best start = false ∧
      ∀ k c, best k = some c → ∀ next ∈ S.successors c, S.beats best next = false := by
  have h := (sound_initial hS hstart).run hS hP hrun
  refine ⟨fun k c hc => ⟨h.filed k c hc, h.stored k c hc⟩, h.started, fun k c hc => ?_⟩
  rcases h.closed k c hc with hno | hno | hclosed
  · exact hno.elim
  · cases hno
  · exact hclosed

/-! ## The end of a search -/

/-- The labels that would still be stored, and those in the queue. -/
def potential (S : LabelSearch κ γ) (all : List γ) (s : State κ γ) : Nat :=
  all.countP (S.beats s.best) + s.queue.length

theorem countP_lt {α : Type*} {p q : α → Bool} {l : List α} (hle : ∀ x ∈ l, p x = true → q x = true)
    {x : α} (hx : x ∈ l) (hp : p x = false) (hq : q x = true) : l.countP p < l.countP q := by
  obtain ⟨before, after, rfl⟩ := List.append_of_mem hx
  have hbefore : before.countP p ≤ before.countP q :=
    List.countP_mono_left fun y hy => hle y (List.mem_append_left _ hy)
  have hafter : after.countP p ≤ after.countP q :=
    List.countP_mono_left fun y hy => hle y (List.mem_append_right _ (List.mem_cons_of_mem x hy))
  rw [List.countP_append, List.countP_append, List.countP_cons_of_neg (by rw [hp]; exact nofun),
    List.countP_cons_of_pos hq]
  omega

theorem potential_offer_le (hS : S.Lawful) (hfiled : S.Filed s.best) {all : List γ}
    (hnext : next ∈ all) : S.potential all (S.offer s next) ≤ S.potential all s := by
  rw [offer_eq]
  split
  · rename_i hbeats
    have hlt : all.countP (S.beats (S.store s next).best) < all.countP (S.beats s.best) := by
      refine countP_lt (fun c _ hc => ?_) hnext (beats_store_self hS next) hbeats
      by_contra hno
      have hkept := beats_store hS hfiled hbeats (Bool.eq_false_iff.mpr hno)
      exact absurd (hkept.symm.trans hc) Bool.false_ne_true
    rw [potential, potential, length_queue_store hS]
    omega
  · exact Nat.le_refl _

theorem potential_foldl_le (hS : S.Lawful) {all : List γ} (nexts : List γ)
    (hnexts : ∀ next ∈ nexts, next ∈ all) (h : S.Sound start P busy s)
    (hP : ∀ next ∈ nexts, P next) :
    S.potential all (nexts.foldl S.offer s) ≤ S.potential all s := by
  induction nexts generalizing s with
  | nil => exact Nat.le_refl _
  | cons next nexts ih =>
    have hoffer := h.offer hS (hP next List.mem_cons_self)
    have hrest := ih (fun n hn => hnexts n (List.mem_cons_of_mem next hn)) hoffer
      fun n hn => hP n (List.mem_cons_of_mem next hn)
    exact Nat.le_trans hrest (potential_offer_le hS h.filed (hnexts next List.mem_cons_self))

theorem exists_run_of_potential (hS : S.Lawful) {all : List γ}
    (hall : ∀ c ∈ all, ∀ next ∈ S.successors c, next ∈ all) {steps : Nat}
    (h : S.Sound start (· ∈ all) (fun _ => False) s) (hsteps : S.potential all s ≤ steps) :
    ∃ best, S.run steps s = some best := by
  induction steps generalizing s with
  | zero =>
    obtain ⟨labels, queue⟩ := s
    cases queue with
    | nil => exact ⟨labels, rfl⟩
    | cons current queue =>
      have hpos : 0 < S.potential all ⟨labels, current :: queue⟩ := by
        rw [potential, List.length_cons]
        omega
      omega
  | succ steps ih =>
    obtain ⟨labels, queue⟩ := s
    cases queue with
    | nil => exact ⟨labels, rfl⟩
    | cons current queue =>
      have hcurrent := h.queued current List.mem_cons_self
      have hrest : S.Sound start (· ∈ all) (fun _ => True) ⟨labels, queue⟩ :=
        { filed := h.filed
          stored := h.stored
          queued := fun c hc => h.queued c (List.mem_cons_of_mem current hc)
          started := h.started
          closed := fun _ _ _ => Or.inl trivial }
      have hle := potential_foldl_le hS _ (hall current hcurrent) hrest (hall current hcurrent)
      have hqueue : S.potential all ⟨labels, current :: queue⟩ =
          S.potential all ⟨labels, queue⟩ + 1 := rfl
      refine ih (h.expand hS hall) ?_
      rw [LabelSearch.expand]
      omega

theorem run_mono {steps more : Nat} {best : κ → Option γ} (hle : steps ≤ more)
    (hrun : S.run steps s = some best) : S.run more s = some best := by
  induction steps generalizing s more with
  | zero =>
    obtain ⟨labels, queue⟩ := s
    cases queue with
    | nil =>
      cases more with
      | zero => exact hrun
      | succ more => exact hrun
    | cons current queue => cases hrun
  | succ steps ih =>
    obtain ⟨more, rfl⟩ : ∃ m, more = m + 1 := ⟨more - 1, by omega⟩
    obtain ⟨labels, queue⟩ := s
    cases queue with
    | nil => exact hrun
    | cons current queue =>
      have hrest : S.run steps (S.expand ⟨labels, queue⟩ current) = some best := hrun
      show S.run more (S.expand ⟨labels, queue⟩ current) = some best
      exact ih (by omega) hrest

/-- A search of a tree that ends at a depth ends, and more steps change nothing. -/
theorem exists_run (hS : S.Lawful) {depth : Nat} (hend : S.level start (depth + 1) = []) :
    ∃ best least, ∀ steps, least ≤ steps → S.run steps (S.initial start) = some best := by
  have hall : ∀ c ∈ S.tree start depth, ∀ next ∈ S.successors c,
      next ∈ S.tree start depth := fun c hc next hnext => mem_tree_of_successor hend hc hnext
  have hstart : start ∈ S.tree start depth :=
    List.mem_flatMap.mpr ⟨0, List.mem_range.mpr (by omega), List.mem_singleton.mpr rfl⟩
  have hsound : S.Sound start (· ∈ S.tree start depth) (fun _ => False) (S.initial start) :=
    sound_initial hS hstart
  obtain ⟨best, hbest⟩ := exists_run_of_potential hS hall hsound (Nat.le_refl _)
  refine ⟨best, _, fun steps hsteps => run_mono hsteps hbest⟩

end LabelSearch

end CartoLive.Lib
