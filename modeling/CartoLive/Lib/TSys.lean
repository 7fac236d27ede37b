import Mathlib.Data.List.Basic
import Mathlib.Data.List.Induction

/-!
# Guarded transition systems

A labelled transition system with an executable partial step, the states it
reaches by steps that all meet a guard, and the induction rules for safety
properties. The guard is what lets a development say "in every run whose
steps all meet the condition": the unguarded system is the guard `True`, and
a run that meets a stronger guard meets every weaker one (`ReachOn.mono`).

`runOn` executes a schedule and checks the guard on the way, so that a
concrete run is a computation (`reachOn_of_runOn`).
-/

namespace CartoLive.Lib

universe u v

/-- A labelled transition system; `step s a = none` when `a` is not enabled. -/
structure TSys (σ : Type u) (α : Type v) where
  init : σ → Prop
  step : σ → α → Option σ

namespace TSys

variable {σ : Type u} {α : Type v} {M : TSys σ α} {ok ok' : σ → α → Prop} {P Q : σ → Prop}

/-- The states reached from an initial state by steps that all meet `ok`. -/
inductive ReachOn (M : TSys σ α) (ok : σ → α → Prop) : σ → Prop
  | init {s} : M.init s → ReachOn M ok s
  | step {s s' a} : ReachOn M ok s → ok s a → M.step s a = some s' → ReachOn M ok s'

/-- The states reached by any steps. -/
abbrev Reachable (M : TSys σ α) : σ → Prop := M.ReachOn fun _ _ => True

/-- A run that meets a stronger guard meets a weaker one. -/
theorem ReachOn.mono (h : ∀ s a, ok s a → ok' s a) {s : σ} (hs : M.ReachOn ok s) :
    M.ReachOn ok' s := by
  induction hs with
  | init hi => exact .init hi
  | step _ hok hst ih => exact .step ih (h _ _ hok) hst

theorem ReachOn.reachable {s : σ} (hs : M.ReachOn ok s) : M.Reachable s :=
  hs.mono fun _ _ _ => trivial

/-- `P` holds at the start and is kept by every step that meets the guard. -/
structure InductiveOn (M : TSys σ α) (ok : σ → α → Prop) (P : σ → Prop) : Prop where
  init : ∀ s, M.init s → P s
  step : ∀ s a s', P s → ok s a → M.step s a = some s' → P s'

/-- The induction rule. -/
theorem InductiveOn.invariant (h : M.InductiveOn ok P) {s : σ} (hs : M.ReachOn ok s) : P s := by
  induction hs with
  | init hi => exact h.init _ hi
  | step _ hok hst ih => exact h.step _ _ _ ih hok hst

/-- The induction rule relative to a property `Q` that is already known of every
state of the run. -/
theorem ReachOn.induct_with (hQ : ∀ s, M.ReachOn ok s → Q s) (init : ∀ s, M.init s → P s)
    (step : ∀ s a s', Q s → P s → ok s a → M.step s a = some s' → P s')
    {s : σ} (hs : M.ReachOn ok s) : P s := by
  induction hs with
  | init hi => exact init _ hi
  | step hr hok hst ih => exact step _ _ _ (hQ _ hr) ih hok hst

/-! ## Executing a schedule -/

/-- Run a schedule, checking the guard before every step. -/
def runOn (M : TSys σ α) (ok : σ → α → Prop) [∀ s a, Decidable (ok s a)] : σ → List α → Option σ
  | s, [] => some s
  | s, a :: as => if ok s a then (M.step s a).bind fun s' => runOn M ok s' as else none

/-- Run a schedule. -/
def run (M : TSys σ α) : σ → List α → Option σ
  | s, [] => some s
  | s, a :: as => (M.step s a).bind fun s' => run M s' as

theorem run_append (s : σ) (as bs : List α) :
    M.run s (as ++ bs) = (M.run s as).bind fun t => M.run t bs := by
  induction as generalizing s with
  | nil => rfl
  | cons a as ih =>
    show (M.step s a).bind _ = ((M.step s a).bind _).bind _
    rw [Option.bind_assoc]
    exact congrArg _ (funext ih)

/-- The moment between the two parts of a schedule. -/
theorem run_append_eq_some {s u : σ} {as bs : List α} :
    M.run s (as ++ bs) = some u ↔ ∃ t, M.run s as = some t ∧ M.run t bs = some u := by
  rw [run_append, Option.bind_eq_some_iff]

theorem run_cons_eq_some {s u : σ} {a : α} {as : List α} :
    M.run s (a :: as) = some u ↔ ∃ t, M.step s a = some t ∧ M.run t as = some u :=
  Option.bind_eq_some_iff

/-- What every step of a schedule keeps. -/
theorem run_keeps {as : List α} (h : ∀ s, ∀ a ∈ as, ∀ t, P s → M.step s a = some t → P t) {s t : σ}
    (hs : P s) (hrun : M.run s as = some t) : P t := by
  induction as generalizing s with
  | nil => cases hrun; exact hs
  | cons a as ih =>
    obtain ⟨u, hu, hrest⟩ := run_cons_eq_some.mp hrun
    exact ih (fun s b hb => h s b (List.mem_cons_of_mem a hb)) (h s a List.mem_cons_self u hs hu)
      hrest

theorem ReachOn.runOn [∀ s a, Decidable (ok s a)] {s s' : σ} {as : List α} (hs : M.ReachOn ok s)
    (h : M.runOn ok s as = some s') : M.ReachOn ok s' := by
  induction as generalizing s with
  | nil => cases h; exact hs
  | cons a as ih =>
    unfold TSys.runOn at h
    split at h
    · rename_i hok
      obtain ⟨t, ht, hrest⟩ := Option.bind_eq_some_iff.mp h
      exact ih (hs.step hok ht) hrest
    · cases h

/-- A state computed by a guarded schedule is reached under the guard. -/
theorem reachOn_of_runOn [∀ s a, Decidable (ok s a)] {s s' : σ} (as : List α) (hi : M.init s)
    (h : M.runOn ok s as = some s') : M.ReachOn ok s' :=
  (ReachOn.init hi).runOn h

variable (ok) in
/-- A guarded schedule whose last state passes a test reaches such a state. -/
theorem exists_reachOn_of_runOn [∀ s a, Decidable (ok s a)] {s : σ} (as : List α) (test : σ → Bool)
    (hi : M.init s) (h : (M.runOn ok s as).any test = true) :
    ∃ s', M.ReachOn ok s' ∧ test s' = true := by
  obtain ⟨s', hs', htest⟩ := (Option.any_eq_true test _).mp h
  exact ⟨s', reachOn_of_runOn as hi hs', htest⟩

theorem Reachable.run {s s' : σ} {as : List α} (hs : M.Reachable s) (h : M.run s as = some s') :
    M.Reachable s' := by
  induction as generalizing s with
  | nil => cases h; exact hs
  | cons a as ih =>
    obtain ⟨t, ht, hrest⟩ := Option.bind_eq_some_iff.mp h
    exact ih (hs.step trivial ht) hrest

/-- A state computed by a schedule is reachable. -/
theorem reachable_of_run {s s' : σ} (as : List α) (hi : M.init s) (h : M.run s as = some s') :
    M.Reachable s' :=
  Reachable.run (.init hi) h

/-- A schedule whose last state passes a test reaches such a state. -/
theorem exists_reachable_of_run {s : σ} (as : List α) (test : σ → Bool) (hi : M.init s)
    (h : (M.run s as).any test = true) : ∃ s', M.Reachable s' ∧ test s' = true := by
  obtain ⟨s', hs', htest⟩ := (Option.any_eq_true test _).mp h
  exact ⟨s', reachable_of_run as hi hs', htest⟩

/-! ## Runs moment by moment -/

/-- A run from an initial state; at some moments nothing happens. -/
structure Execution (M : TSys σ α) where
  state : Nat → σ
  init : M.init (state 0)
  next : ∀ n, state (n + 1) = state n ∨ ∃ a, M.step (state n) a = some (state (n + 1))

theorem Execution.reachable (e : M.Execution) (n : Nat) : M.Reachable (e.state n) := by
  induction n with
  | zero => exact .init e.init
  | succ n ih =>
    rcases e.next n with hsame | ⟨a, hstep⟩
    · exact hsame ▸ ih
    · exact ih.step trivial hstep

/-- Every step of the run meets a guard. -/
def Execution.Meets (e : M.Execution) (ok : σ → α → Prop) : Prop :=
  ∀ n, e.state (n + 1) = e.state n ∨
    ∃ a, ok (e.state n) a ∧ M.step (e.state n) a = some (e.state (n + 1))

/-- The state at a moment of a schedule, which ends where an action does not meet
the guard or is not enabled. -/
def follow (M : TSys σ α) (ok : σ → α → Prop) [∀ s a, Decidable (ok s a)] : σ → List α → Nat → σ
  | s, _, 0 => s
  | s, [], _ + 1 => s
  | s, a :: as, n + 1 =>
    if ok s a then
      match M.step s a with
      | some s' => M.follow ok s' as n
      | none => s
    else s

theorem follow_succ [∀ s a, Decidable (ok s a)] (s : σ) (as : List α) (n : Nat) :
    M.follow ok s as (n + 1) = M.follow ok s as n ∨ ∃ a, ok (M.follow ok s as n) a ∧
      M.step (M.follow ok s as n) a = some (M.follow ok s as (n + 1)) := by
  induction as generalizing s n with
  | nil => cases n <;> exact .inl rfl
  | cons a as ih =>
    by_cases hok : ok s a
    · cases hstep : M.step s a with
      | some s' =>
        cases n with
        | zero => exact .inr ⟨a, by cases as <;> simp [follow, hok, hstep]⟩
        | succ n =>
          simp only [follow, hok, if_true, hstep]
          exact ih s' n
      | none => cases n <;> simp [follow, hok, hstep]
    · cases n <;> simp [follow, hok]

/-- The run that follows a schedule. -/
def Execution.ofSchedule (ok : σ → α → Prop) [∀ s a, Decidable (ok s a)] {s : σ} (hi : M.init s)
    (as : List α) : M.Execution where
  state := M.follow ok s as
  init := by cases as <;> exact hi
  next n := (follow_succ s as n).imp_right fun ⟨a, _, hstep⟩ => ⟨a, hstep⟩

theorem Execution.ofSchedule_meets [∀ s a, Decidable (ok s a)] {s : σ} (hi : M.init s)
    (as : List α) : (Execution.ofSchedule ok hi as).Meets ok := follow_succ s as

/-- A rank that no step raises and that falls again and again until it is zero
becomes zero. -/
theorem Execution.eventually_zero (e : M.Execution) (rank : σ → Nat) {n : Nat}
    (hle : ∀ m ≥ n, rank (e.state (m + 1)) ≤ rank (e.state m))
    (hlt : ∀ m ≥ n, rank (e.state m) ≠ 0 →
      ∃ k ≥ m, rank (e.state (k + 1)) < rank (e.state k)) :
    ∃ m ≥ n, rank (e.state m) = 0 := by
  have hmono : ∀ m ≥ n, ∀ k, rank (e.state (m + k)) ≤ rank (e.state m) := by
    intro m hm k
    induction k with
    | zero => exact Nat.le_refl _
    | succ k ih => exact Nat.le_trans (hle (m + k) (by omega)) ih
  -- the induction is on the rank
  have hall : ∀ r, ∀ m ≥ n, rank (e.state m) ≤ r → ∃ k ≥ n, rank (e.state k) = 0 := by
    intro r
    induction r with
    | zero => exact fun m hm hr => ⟨m, hm, Nat.le_zero.mp hr⟩
    | succ r ih =>
      intro m hm hr
      by_cases hzero : rank (e.state m) = 0
      · exact ⟨m, hm, hzero⟩
      · obtain ⟨k, hk, hfall⟩ := hlt m hm hzero
        obtain ⟨d, rfl⟩ := Nat.exists_eq_add_of_le hk
        have hbefore := hmono m hm d
        exact ih (m + d + 1) (by omega) (by omega)
  exact hall _ n (Nat.le_refl n) (Nat.le_refl _)

/-! ## Counting the steps of a schedule -/

/-- How many steps of a schedule are of a kind. -/
def countSteps (M : TSys σ α) (p : σ → α → Bool) : σ → List α → Nat
  | _, [] => 0
  | s, a :: as =>
    (p s a).toNat +
      match M.step s a with
      | none => 0
      | some t => M.countSteps p t as

theorem countSteps_cons {p : σ → α → Bool} {s t : σ} {a : α} (h : M.step s a = some t)
    (as : List α) : M.countSteps p s (a :: as) = (p s a).toNat + M.countSteps p t as := by
  rw [countSteps, h]

/-- A number that grows by one in each step of a kind, and in no other. -/
theorem run_adds {p : σ → α → Bool} {f : σ → Int} {as : List α}
    (h : ∀ s, ∀ a ∈ as, ∀ t, P s → M.step s a = some t → P t ∧ f t = f s + (p s a).toNat) {s t : σ}
    (hs : P s) (hrun : M.run s as = some t) : f t = f s + M.countSteps p s as := by
  induction as generalizing s with
  | nil =>
    obtain rfl := Option.some.inj hrun
    simp [countSteps]
  | cons a as ih =>
    obtain ⟨u, hu, hrest⟩ := run_cons_eq_some.mp hrun
    obtain ⟨hP, hf⟩ := h s a List.mem_cons_self u hs hu
    have htail := ih (fun s b hb => h s b (List.mem_cons_of_mem a hb)) hP hrest
    rw [htail, hf, countSteps_cons hu]
    push_cast
    omega

/-- What every step not of a kind keeps, where no step is of that kind. -/
theorem run_keeps_of_countSteps {p : σ → α → Bool} {as : List α}
    (h : ∀ s, ∀ a ∈ as, ∀ t, P s → p s a = false → M.step s a = some t → P t) {s t : σ} (hs : P s)
    (hnone : M.countSteps p s as = 0) (hrun : M.run s as = some t) : P t := by
  induction as generalizing s with
  | nil =>
    obtain rfl := Option.some.inj hrun
    exact hs
  | cons a as ih =>
    obtain ⟨u, hu, hrest⟩ := run_cons_eq_some.mp hrun
    rw [countSteps_cons hu] at hnone
    have hfirst : p s a = false := by
      cases hp : p s a with
      | false => rfl
      | true =>
        rw [hp, Bool.toNat_true] at hnone
        omega
    exact ih (fun s b hb => h s b (List.mem_cons_of_mem a hb))
      (h s a List.mem_cons_self u hs hfirst hu) (by omega) hrest

end TSys

end CartoLive.Lib

/-!
## Histories

A history is the list of what has happened, latest last. `Along P` says that
every entry is justified by the entries before it; it is kept by appending a
justified entry (`along_concat`), so a system that only appends carries it
through its runs.
-/

namespace CartoLive.Lib

universe u

variable {α : Type u} {P Q : List α → α → Prop} {history : List α}

/-- Every entry stands in `P` to the entries before it. -/
def Along (P : List α → α → Prop) (history : List α) : Prop :=
  ∀ before e after, history = before ++ e :: after → P before e

theorem along_nil : Along P [] := by
  intro before e after h
  simp at h

/-- A split of a longer history is one of the history, or splits the new entry
off. -/
theorem split_concat {x e : α} {before after : List α}
    (h : history ++ [x] = before ++ e :: after) :
    (∃ after', history = before ++ e :: after' ∧ after = after' ++ [x]) ∨
      before = history ∧ e = x ∧ after = [] := by
  rcases List.eq_nil_or_concat after with rfl | ⟨after', y, rfl⟩
  · obtain ⟨hbefore, he⟩ := List.append_inj' h rfl
    exact Or.inr ⟨hbefore.symm, (List.cons.inj he).1.symm, rfl⟩
  · rw [List.concat_eq_append, ← List.cons_append, ← List.append_assoc] at h
    obtain ⟨hbefore, hy⟩ := List.append_inj' h rfl
    refine Or.inl ⟨after', hbefore, ?_⟩
    rw [List.concat_eq_append, (List.cons.inj hy).1]

theorem along_concat {x : α} : Along P (history ++ [x]) ↔ Along P history ∧ P history x := by
  constructor
  · intro h
    refine ⟨fun before e after hsplit => h before e (after ++ [x]) ?_, h history x [] rfl⟩
    rw [hsplit, List.append_assoc, List.cons_append]
  · rintro ⟨h, hx⟩ before e after hsplit
    rcases split_concat hsplit with ⟨after', hsplit', -⟩ | ⟨rfl, rfl, -⟩
    · exact h before e after' hsplit'
    · exact hx

/-- The same by places. -/
theorem along_iff : Along P history ↔
    ∀ i : Fin history.length, P (history.take i) (history.get i) := by
  constructor
  · intro h i
    refine h _ _ (history.drop (i + 1)) ?_
    rw [List.get_eq_getElem, List.getElem_cons_drop, List.take_append_drop]
  · rintro h before e after rfl
    have := h ⟨before.length, by simp⟩
    simpa using this

instance [∀ before e, Decidable (P before e)] : Decidable (Along P history) :=
  decidable_of_iff _ along_iff.symm

theorem Along.exists_of_mem (h : Along P history) {e : α} (he : e ∈ history) :
    ∃ before after, history = before ++ e :: after ∧ P before e := by
  obtain ⟨before, after, hsplit⟩ := List.append_of_mem he
  exact ⟨before, after, hsplit, h before e after hsplit⟩

/-- An entry that is never justified behind itself occurs at most once. -/
theorem Along.count_le_one [DecidableEq α] (h : Along P history) {e : α}
    (hfresh : ∀ before, P before e → e ∉ before) : history.count e ≤ 1 := by
  induction history using List.reverseRecOn with
  | nil => simp
  | append_singleton history x ih =>
    obtain ⟨hold, hx⟩ := along_concat.mp h
    rw [List.count_append, List.count_singleton]
    split
    · rename_i heq
      obtain rfl := eq_of_beq heq
      have hzero := List.count_eq_zero.mpr (hfresh history hx)
      omega
    · exact ih hold

end CartoLive.Lib
