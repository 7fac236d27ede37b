import Mathlib.Data.List.Basic
import Mathlib.Data.Option.Basic

/-!
# Regular expressions that look at their neighbours

Expressions over any characters, with a word boundary that looks at the
character before and the character behind. `Accepts` says which stretches of a
text match between which neighbours; `ends` lists the ways to match from a
position in order of preference, and `replaceAll` puts a block in the place of
every match, from the left.

The rules: `ends` finds exactly what `Accepts` says (`mem_ends`), a match moves
to neighbours that keep its boundaries (`Accepts.move`), and replacing leaves no
match of its own behind and makes none of another expression
(`Replaces.no_start`).
-/

namespace CartoLive.Lib

universe u

variable {α : Type u}

/-- A regular expression; a single character is given by a test. -/
inductive Regex (α : Type u)
  | empty
  | one (test : α → Bool)
  | boundary
  | seq (r s : Regex α)
  | alt (r s : Regex α)
  | star (r : Regex α)

/-! ## Neighbours -/

/-- The character before a position that follows `w`. -/
def lastOr (w : List α) (prev : Option α) : Option α := w.getLast?.or prev

/-- The character behind a position that `w` follows. -/
def headOr (w : List α) (next : Option α) : Option α := w.head?.or next

@[simp] theorem lastOr_nil (prev : Option α) : lastOr [] prev = prev := rfl

@[simp] theorem headOr_nil (next : Option α) : headOr [] next = next := rfl

@[simp] theorem lastOr_none (w : List α) : lastOr w none = w.getLast? := Option.or_none

@[simp] theorem headOr_cons (c : α) (w : List α) (next : Option α) :
    headOr (c :: w) next = some c := rfl

@[simp] theorem lastOr_append (u v : List α) (prev : Option α) :
    lastOr (u ++ v) prev = lastOr v (lastOr u prev) := by
  simp only [lastOr, List.getLast?_append, Option.or_assoc]

@[simp] theorem headOr_append (u v : List α) (next : Option α) :
    headOr (u ++ v) next = headOr u (headOr v next) := by
  simp only [headOr, List.head?_append, Option.or_assoc]

theorem head?_append_eq_headOr (u v : List α) : (u ++ v).head? = headOr u v.head? := by
  simp only [headOr, List.head?_append]

theorem lastOr_of_ne_nil {w : List α} (h : w ≠ []) (prev : Option α) :
    lastOr w prev = w.getLast? := by
  rw [lastOr, List.getLast?_eq_some_getLast h, Option.some_or]

theorem headOr_of_ne_nil {w : List α} (h : w ≠ []) (next : Option α) : headOr w next = w.head? := by
  rw [headOr, List.head?_eq_some_head h, Option.some_or]

section Words

variable (word : α → Bool)

/-- One of two neighbours belongs to a word and the other does not. -/
def Boundary (prev next : Option α) : Prop := prev.any word ≠ next.any word

instance (prev next : Option α) : Decidable (Boundary word prev next) :=
  inferInstanceAs (Decidable (_ ≠ _))

namespace Regex

/-! ## What an expression matches -/

/-- The stretch `w` between the neighbours `prev` and `next` is a match. -/
inductive Accepts : Regex α → Option α → List α → Option α → Prop
  | empty {prev next} : Accepts .empty prev [] next
  | one {test prev c next} (h : test c = true) : Accepts (.one test) prev [c] next
  | boundary {prev next} (h : Boundary word prev next) : Accepts .boundary prev [] next
  | seq {r s prev u v next} (hr : Accepts r prev u (headOr v next))
      (hs : Accepts s (lastOr u prev) v next) : Accepts (.seq r s) prev (u ++ v) next
  | left {r s prev w next} (hr : Accepts r prev w next) : Accepts (.alt r s) prev w next
  | right {r s prev w next} (hs : Accepts s prev w next) : Accepts (.alt r s) prev w next
  | stop {r prev next} : Accepts (.star r) prev [] next
  | more {r prev u v next} (hr : Accepts r prev u (headOr v next))
      (hs : Accepts (.star r) (lastOr u prev) v next) : Accepts (.star r) prev (u ++ v) next

/-- A text has a match. -/
def HasMatch (r : Regex α) (l : List α) : Prop :=
  ∃ a w b, l = a ++ w ++ b ∧ r.Accepts word a.getLast? w b.head?

variable {word}

/-- A match stays one between neighbours that keep the boundaries at its ends. -/
theorem Accepts.move {r : Regex α} {prev prev' next next' : Option α} {w : List α}
    (h : r.Accepts word prev w next)
    (hfirst : Boundary word prev (headOr w next) → Boundary word prev' (headOr w next'))
    (hlast : Boundary word (lastOr w prev) next → Boundary word (lastOr w prev') next') :
    r.Accepts word prev' w next' := by
  -- where one part of a sequence is empty, its end is an end of the whole
  have hright : ∀ {u v : List α} {prev prev' next next' : Option α},
      (Boundary word prev (headOr (u ++ v) next) → Boundary word prev' (headOr (u ++ v) next')) →
      (Boundary word (lastOr (u ++ v) prev) next → Boundary word (lastOr (u ++ v) prev') next') →
      Boundary word (lastOr u prev) (headOr v next) →
        Boundary word (lastOr u prev') (headOr v next') := by
    intro u v prev prev' next next' hfirst hlast hb
    by_cases hu : u = []
    · subst hu
      exact hfirst hb
    · by_cases hv : v = []
      · subst hv
        simpa using hlast (by simpa using hb)
      · rw [lastOr_of_ne_nil hu, headOr_of_ne_nil hv] at hb ⊢
        exact hb
  induction h generalizing prev' next' with
  | empty => exact .empty
  | one h => exact .one h
  | boundary h => exact .boundary (hfirst h)
  | seq hr hs ihr ihs =>
    refine .seq (ihr ?_ (hright hfirst hlast)) (ihs (hright hfirst hlast) ?_)
    · simpa using hfirst
    · simpa using hlast
  | left _ ih => exact .left (ih hfirst hlast)
  | right _ ih => exact .right (ih hfirst hlast)
  | stop => exact .stop
  | more hr hs ihr ihs =>
    refine .more (ihr ?_ (hright hfirst hlast)) (ihs (hright hfirst hlast) ?_)
    · simpa using hfirst
    · simpa using hlast

/-- Only what the neighbours are to a word matters. -/
theorem Accepts.congr {r : Regex α} {prev prev' next next' : Option α} {w : List α}
    (h : r.Accepts word prev w next) (hprev : prev.any word = prev'.any word)
    (hnext : next.any word = next'.any word) : r.Accepts word prev' w next' := by
  have hfirst : (headOr w next).any word = (headOr w next').any word := by
    cases w with
    | nil => exact hnext
    | cons c w => rfl
  have hlast : (lastOr w prev).any word = (lastOr w prev').any word := by
    by_cases hw : w = []
    · rw [hw]
      exact hprev
    · rw [lastOr_of_ne_nil hw, lastOr_of_ne_nil hw]
  refine h.move ?_ ?_
  · rw [Boundary, Boundary, hprev, hfirst]
    exact id
  · rw [Boundary, Boundary, hlast, hnext]
    exact id

theorem accepts_seq_iff {r s : Regex α} {prev next : Option α} {w : List α} :
    (Regex.seq r s).Accepts word prev w next ↔ ∃ u v, w = u ++ v ∧
      r.Accepts word prev u (headOr v next) ∧ s.Accepts word (lastOr u prev) v next := by
  constructor
  · intro h
    cases h with
    | seq hr hs => exact ⟨_, _, rfl, hr, hs⟩
  · rintro ⟨u, v, rfl, hr, hs⟩
    exact .seq hr hs

theorem accepts_one_iff {test : α → Bool} {prev next : Option α} {w : List α} :
    (Regex.one test).Accepts word prev w next ↔ ∃ c, w = [c] ∧ test c = true := by
  constructor
  · intro h
    cases h with
    | one h => exact ⟨_, rfl, h⟩
  · rintro ⟨c, rfl, h⟩
    exact .one h

/-! ## Searching -/

/-- A position in a text: the character before it and what follows. -/
abbrev Position (α : Type u) := Option α × List α

/-- The ways to repeat `step`, more repetitions first. Each one reads something, so that `fuel`
need not be more than what there is to read. -/
def starEnds (step : Position α → List (Position α)) : Nat → Position α → List (Position α)
  | 0, p => [p]
  | fuel + 1, p =>
    (step p).flatMap (fun q => if q.2.length < p.2.length then starEnds step fuel q else []) ++ [p]

variable (word)

/-- Where the matches from a position end, the preferred one first. -/
def ends : Regex α → Position α → List (Position α)
  | .empty, p => [p]
  | .one _, (_, []) => []
  | .one test, (_, c :: rest) => if test c then [(some c, rest)] else []
  | .boundary, p => if Boundary word p.1 p.2.head? then [p] else []
  | .seq r s, p => (r.ends p).flatMap s.ends
  | .alt r s, p => r.ends p ++ s.ends p
  | .star r, p => starEnds r.ends p.2.length p

variable {word}

theorem mem_starEnds {r : Regex α}
    (ih : ∀ prev l q, q ∈ r.ends word (prev, l) ↔
      ∃ w, l = w ++ q.2 ∧ q.1 = lastOr w prev ∧ r.Accepts word prev w q.2.head?)
    (fuel : Nat) (prev : Option α) (l : List α) (hfuel : l.length ≤ fuel) (q : Position α) :
    q ∈ starEnds (r.ends word) fuel (prev, l) ↔
      ∃ w, l = w ++ q.2 ∧ q.1 = lastOr w prev ∧ (Regex.star r).Accepts word prev w q.2.head? := by
  constructor
  · intro h
    clear hfuel
    induction fuel generalizing prev l with
    | zero =>
      rw [starEnds, List.mem_singleton] at h
      subst h
      exact ⟨[], rfl, rfl, .stop⟩
    | succ fuel ihf =>
      rw [starEnds, List.mem_append, List.mem_singleton, List.mem_flatMap] at h
      rcases h with ⟨⟨prev', l'⟩, hstep, hq⟩ | rfl
      · split at hq
        · obtain ⟨u, rfl, hprev, hu⟩ := (ih prev l (prev', l')).mp hstep
          obtain ⟨v, hl, hlast, hv⟩ := ihf _ _ hq
          dsimp only at hl hprev hu
          subst hl hprev
          refine ⟨u ++ v, by simp, by simpa using hlast, .more ?_ hv⟩
          rw [← head?_append_eq_headOr]
          exact hu
        · cases hq
      · exact ⟨[], rfl, rfl, .stop⟩
  · rintro ⟨w, rfl, hlast, h⟩
    -- the pieces of the repetition, the empty ones left out
    generalize hstar : Regex.star r = e at h
    generalize hnext : q.2.head? = next at h
    induction h generalizing fuel with
    | @stop _ prev =>
      have hq : q = (prev, [] ++ q.2) := Prod.ext hlast rfl
      cases fuel with
      | zero =>
        rw [starEnds, List.mem_singleton]
        exact hq
      | succ fuel =>
        rw [starEnds, List.mem_append, List.mem_singleton]
        exact .inr hq
    | @more _ prev u v next hr _ _ ihs =>
      cases hstar
      subst hnext
      rw [lastOr_append] at hlast
      by_cases hu : u = []
      · subst hu
        exact ihs fuel hfuel hlast rfl rfl
      · have hpos := List.length_pos_of_ne_nil hu
        rw [List.length_append, List.length_append] at hfuel
        obtain ⟨fuel, rfl⟩ : ∃ n, fuel = n + 1 := ⟨fuel - 1, by omega⟩
        rw [starEnds, List.mem_append, List.mem_flatMap]
        refine .inl ⟨(lastOr u prev, v ++ q.2), (ih _ _ _).mpr ⟨u, by simp, rfl, ?_⟩, ?_⟩
        · rw [head?_append_eq_headOr]
          exact hr
        · rw [if_pos (by simp only [List.length_append]; omega)]
          exact ihs fuel (by rw [List.length_append]; omega) hlast rfl rfl
    | _ => cases hstar

/-- The search finds the matches and nothing else. -/
theorem mem_ends {r : Regex α} {prev : Option α} {l : List α} {q : Position α} :
    q ∈ r.ends word (prev, l) ↔
      ∃ w, l = w ++ q.2 ∧ q.1 = lastOr w prev ∧ r.Accepts word prev w q.2.head? := by
  induction r generalizing prev l q with
  | empty =>
    rw [ends, List.mem_singleton]
    constructor
    · rintro rfl
      exact ⟨[], rfl, rfl, .empty⟩
    · rintro ⟨w, rfl, hlast, h⟩
      cases h
      exact Prod.ext hlast rfl
  | one test =>
    constructor
    · intro h
      cases l with
      | nil => cases h
      | cons c rest =>
        rw [ends] at h
        split at h
        · rename_i hc
          rw [List.mem_singleton.mp h]
          exact ⟨[c], rfl, rfl, .one hc⟩
        · cases h
    · rintro ⟨w, rfl, hlast, h⟩
      obtain ⟨c, rfl, hc⟩ := accepts_one_iff.mp h
      rw [List.singleton_append, ends, if_pos hc, List.mem_singleton]
      exact Prod.ext hlast rfl
  | boundary =>
    constructor
    · intro h
      rw [ends] at h
      split at h
      · rename_i hb
        rw [List.mem_singleton.mp h]
        exact ⟨[], rfl, rfl, .boundary hb⟩
      · cases h
    · rintro ⟨w, rfl, hlast, h⟩
      cases h with
      | boundary hb =>
        rw [ends, List.nil_append, if_pos hb, List.mem_singleton]
        exact Prod.ext hlast rfl
  | seq r s ihr ihs =>
    rw [ends, List.mem_flatMap]
    constructor
    · rintro ⟨⟨prev', l'⟩, hr, hs⟩
      obtain ⟨u, rfl, hprev, hu⟩ := ihr.mp hr
      obtain ⟨v, hl, hlast, hv⟩ := ihs.mp hs
      dsimp only at hl hprev hu
      subst hl hprev
      rw [head?_append_eq_headOr] at hu
      exact ⟨u ++ v, by simp, by simpa using hlast, .seq hu hv⟩
    · rintro ⟨w, rfl, hlast, h⟩
      obtain ⟨u, v, rfl, hu, hv⟩ := accepts_seq_iff.mp h
      refine ⟨(lastOr u prev, v ++ q.2), ihr.mpr ⟨u, by simp, rfl, ?_⟩, ihs.mpr ⟨v, rfl, ?_, hv⟩⟩
      · rw [head?_append_eq_headOr]
        exact hu
      · simpa using hlast
  | alt r s ihr ihs =>
    rw [ends, List.mem_append, ihr, ihs]
    constructor
    · rintro (⟨w, hl, hlast, h⟩ | ⟨w, hl, hlast, h⟩)
      · exact ⟨w, hl, hlast, .left h⟩
      · exact ⟨w, hl, hlast, .right h⟩
    · rintro ⟨w, hl, hlast, h⟩
      cases h with
      | left h => exact .inl ⟨w, hl, hlast, h⟩
      | right h => exact .inr ⟨w, hl, hlast, h⟩
  | star r ih => exact mem_starEnds (fun _ _ _ => ih) _ _ _ (Nat.le_refl _) q

/-! ## What the syntax tells -/

/-- No match contains the character `x`. -/
def lacks (x : α) : Regex α → Bool
  | .empty | .boundary => true
  | .one test => !test x
  | .seq r s | .alt r s => r.lacks x && s.lacks x
  | .star r => r.lacks x

/-- Some character of a match passes `test`. -/
def Needs (test : α → Bool) : Regex α → Prop
  | .empty | .boundary | .star _ => False
  | .one t => ∀ c, t c = true → test c = true
  | .seq r s => r.Needs test ∨ s.Needs test
  | .alt r s => r.Needs test ∧ s.Needs test

/-- A match is at least so long. -/
def minLength : Regex α → Nat
  | .empty | .boundary | .star _ => 0
  | .one _ => 1
  | .seq r s => r.minLength + s.minLength
  | .alt r s => min r.minLength s.minLength

/-- A match may begin with the character `x`. -/
def beginsWith (x : α) : Regex α → Bool
  | .empty | .boundary => false
  | .one test => test x
  | .seq r s => r.beginsWith x || (r.minLength == 0 && s.beginsWith x)
  | .alt r s => r.beginsWith x || s.beginsWith x
  | .star r => r.beginsWith x

/-- A match may end with the character `x`. -/
def endsWith (x : α) : Regex α → Bool
  | .empty | .boundary => false
  | .one test => test x
  | .seq r s => s.endsWith x || (s.minLength == 0 && r.endsWith x)
  | .alt r s => r.endsWith x || s.endsWith x
  | .star r => r.endsWith x

/-- A match begins at a boundary. -/
def Opens : Regex α → Prop
  | .boundary => True
  | .seq r _ => r.Opens
  | .alt r s => r.Opens ∧ s.Opens
  | _ => False

/-- A match ends at a boundary. -/
def Closes : Regex α → Prop
  | .boundary => True
  | .seq _ s => s.Closes
  | .alt r s => r.Closes ∧ s.Closes
  | _ => False

section Syntax

variable {r : Regex α} {x : α} {test : α → Bool} {prev next : Option α} {w : List α}

theorem Accepts.not_mem (h : r.Accepts word prev w next) (hr : r.lacks x = true) : x ∉ w := by
  induction h with
  | empty | boundary | stop => exact List.not_mem_nil
  | one h =>
    rintro hx
    obtain rfl := List.mem_singleton.mp hx
    simp [lacks, h] at hr
  | seq _ _ ihr ihs =>
    obtain ⟨hr, hs⟩ := Bool.and_eq_true_iff.mp hr
    exact fun hx => (List.mem_append.mp hx).elim (ihr hr) (ihs hs)
  | left _ ih => exact ih (Bool.and_eq_true_iff.mp hr).1
  | right _ ih => exact ih (Bool.and_eq_true_iff.mp hr).2
  | more _ _ ihr ihs => exact fun hx => (List.mem_append.mp hx).elim (ihr hr) (ihs hr)

theorem Accepts.needs (h : r.Accepts word prev w next) (hr : r.Needs test) :
    ∃ c ∈ w, test c = true := by
  induction h with
  | empty | boundary | stop | more => exact hr.elim
  | one h => exact ⟨_, List.mem_singleton_self _, hr _ h⟩
  | seq _ _ ihr ihs =>
    rcases hr with hr | hr
    · obtain ⟨c, hc, hpass⟩ := ihr hr
      exact ⟨c, List.mem_append_left _ hc, hpass⟩
    · obtain ⟨c, hc, hpass⟩ := ihs hr
      exact ⟨c, List.mem_append_right _ hc, hpass⟩
  | left _ ih => exact ih hr.1
  | right _ ih => exact ih hr.2

theorem Accepts.minLength_le (h : r.Accepts word prev w next) : r.minLength ≤ w.length := by
  induction h with
  | empty | boundary | stop | more => exact Nat.zero_le _
  | one => exact Nat.le_refl _
  | seq _ _ ihr ihs =>
    rw [List.length_append]
    exact Nat.add_le_add ihr ihs
  | left _ ih => exact Nat.le_trans (Nat.min_le_left _ _) ih
  | right _ ih => exact Nat.le_trans (Nat.min_le_right _ _) ih

theorem Accepts.ne_nil (h : r.Accepts word prev w next) (hr : 0 < r.minLength) : w ≠ [] :=
  List.ne_nil_of_length_pos (Nat.lt_of_lt_of_le hr h.minLength_le)

theorem Accepts.head?_ne (h : r.Accepts word prev w next) (hr : r.beginsWith x = false) :
    w.head? ≠ some x := by
  induction h with
  | empty | boundary | stop => simp
  | one h =>
    rintro hx
    obtain rfl := Option.some.inj hx
    exact absurd (h.symm.trans hr) (by decide)
  | @seq r s prev u v next hru _ ihr ihs =>
    obtain ⟨hr, hs⟩ := Bool.or_eq_false_iff.mp hr
    by_cases hu : u = []
    · subst hu
      have hshort : r.minLength = 0 := Nat.le_zero.mp hru.minLength_le
      rw [hshort] at hs
      exact ihs hs
    · rw [List.head?_append_of_ne_nil _ hu]
      exact ihr hr
  | left _ ih => exact ih (Bool.or_eq_false_iff.mp hr).1
  | right _ ih => exact ih (Bool.or_eq_false_iff.mp hr).2
  | @more r prev u v next _ _ ihr ihs =>
    by_cases hu : u = []
    · subst hu
      exact ihs hr
    · rw [List.head?_append_of_ne_nil _ hu]
      exact ihr hr

theorem Accepts.getLast?_ne (h : r.Accepts word prev w next) (hr : r.endsWith x = false) :
    w.getLast? ≠ some x := by
  induction h with
  | empty | boundary | stop => simp
  | one h =>
    rintro hx
    obtain rfl := Option.some.inj hx
    exact absurd (h.symm.trans hr) (by decide)
  | @seq r s prev u v next _ hsv ihr ihs =>
    obtain ⟨hs, hr⟩ := Bool.or_eq_false_iff.mp hr
    by_cases hv : v = []
    · subst hv
      have hshort : s.minLength = 0 := Nat.le_zero.mp hsv.minLength_le
      rw [hshort] at hr
      rw [List.append_nil]
      exact ihr hr
    · rw [List.getLast?_append_of_ne_nil _ hv]
      exact ihs hs
  | left _ ih => exact ih (Bool.or_eq_false_iff.mp hr).1
  | right _ ih => exact ih (Bool.or_eq_false_iff.mp hr).2
  | @more r prev u v next _ _ ihr ihs =>
    by_cases hv : v = []
    · subst hv
      rw [List.append_nil]
      exact ihr hr
    · rw [List.getLast?_append_of_ne_nil _ hv]
      exact ihs hr

theorem Accepts.opens (h : r.Accepts word prev w next) (hr : r.Opens) :
    Boundary word prev (headOr w next) := by
  induction h with
  | empty | one | stop | more => exact hr.elim
  | boundary h => exact h
  | seq _ _ ihr _ =>
    rw [headOr_append]
    exact ihr hr
  | left _ ih => exact ih hr.1
  | right _ ih => exact ih hr.2

theorem Accepts.closes (h : r.Accepts word prev w next) (hr : r.Closes) :
    Boundary word (lastOr w prev) next := by
  induction h with
  | empty | one | stop | more => exact hr.elim
  | boundary h => exact h
  | seq _ _ _ ihs =>
    rw [lastOr_append]
    exact ihs hr
  | left _ ih => exact ih hr.1
  | right _ ih => exact ih hr.2

end Syntax

/-! ## Repetition -/

/-- `r` so many times. -/
def times (r : Regex α) : Nat → Regex α
  | 0 => .empty
  | n + 1 => .seq r (r.times n)

/-- `r` so many times or more. -/
def atLeast (n : Nat) (r : Regex α) : Regex α := .seq (r.times n) (.star r)

/-- `r`, or nothing. -/
def optional (r : Regex α) : Regex α := .alt r .empty

/-! ## Replacing -/

variable (word)

/-- A match begins at a position, and `follow` holds of the character behind it. -/
def Starts (r : Regex α) (follow : Option α → Prop) (prev : Option α) (l : List α) : Prop :=
  ∃ w rest, l = w ++ rest ∧ r.Accepts word prev w rest.head? ∧ follow rest.head?

/-- `replaceAll` from a position that `skip` more characters of a match follow. -/
def replaceFrom (r : Regex α) (block : List α) : Nat → Option α → List α → List α
  | _, _, [] => []
  | skip + 1, _, c :: rest => r.replaceFrom block skip (some c) rest
  | 0, prev, c :: rest =>
    match (r.ends word (prev, c :: rest)).head? with
    | some q =>
      if q.2.length ≤ rest.length then
        block ++ r.replaceFrom block (rest.length - q.2.length) (some c) rest
      else c :: r.replaceFrom block 0 (some c) rest
    | none => c :: r.replaceFrom block 0 (some c) rest

/-- Every match, from the left, replaced by a block; for expressions that do not match the empty
text. -/
def replaceAll (r : Regex α) (block l : List α) : List α := r.replaceFrom word block 0 none l

/-- What `replaceAll` makes of a text behind `prev`. -/
inductive Replaces (r : Regex α) (block : List α) : Option α → List α → List α → Prop
  | nil {prev} : Replaces r block prev [] []
  | keep {prev c rest out} (h : r.ends word (prev, c :: rest) = [])
      (ht : Replaces r block (some c) rest out) : Replaces r block prev (c :: rest) (c :: out)
  | hit {prev w rest out} (h : (r.ends word (prev, w ++ rest)).head? = some (lastOr w prev, rest))
      (hw : w ≠ []) (ht : Replaces r block (lastOr w prev) rest out) :
      Replaces r block prev (w ++ rest) (block ++ out)

variable {word}

theorem replaceFrom_skip (r : Regex α) (block w rest : List α) (prev : Option α) :
    r.replaceFrom word block w.length prev (w ++ rest) =
      r.replaceFrom word block 0 (lastOr w prev) rest := by
  induction w generalizing prev with
  | nil => rfl
  | cons c w ih =>
    rw [List.length_cons, List.cons_append, replaceFrom, ih]
    congr 1
    exact (lastOr_append [c] w prev).symm

theorem replaces_replaceFrom {r : Regex α} (hr : 0 < r.minLength) (block : List α)
    (prev : Option α) (l : List α) :
    Replaces word r block prev l (r.replaceFrom word block 0 prev l) := by
  induction hn : l.length using Nat.strongRecOn generalizing prev l with
  | ind n ih =>
    cases l with
    | nil => exact .nil
    | cons c rest =>
      subst hn
      rw [replaceFrom]
      split
      · rename_i q hq
        obtain ⟨w, hl, hlast, h⟩ := mem_ends.mp (List.mem_of_mem_head? hq)
        obtain ⟨d, w, rfl⟩ := List.exists_cons_of_ne_nil (h.ne_nil hr)
        obtain ⟨rfl, hrest⟩ := List.cons.inj hl
        change rest = w ++ q.2 at hrest
        subst hrest
        have hq' : q = (lastOr (c :: w) prev, q.2) := Prod.ext hlast rfl
        rw [if_pos (by simp), List.length_append, Nat.add_sub_cancel, replaceFrom_skip,
          ← List.cons_append]
        have hcons : lastOr (c :: w) prev = lastOr w (some c) := lastOr_append [c] w prev
        refine .hit (hq.trans (congrArg some hq')) (List.cons_ne_nil _ _) ?_
        rw [hcons]
        exact ih _ (by simp only [List.length_cons, List.length_append]; omega) _ _ rfl
      · rename_i hq
        exact .keep (List.head?_eq_none_iff.mp hq) (ih _ (by simp) _ _ rfl)

/-- What an expression and the last character of its block have to do with boundaries: a match
begins at one, and ends at one wherever the block does. -/
structure Seals (word : α → Bool) (r : Regex α) (last : α) : Prop where
  pos : 0 < r.minLength
  opens : r.Opens
  close : ∀ {prev w rest}, (r.ends word (prev, w ++ rest)).head? = some (lastOr w prev, rest) →
    Boundary word (some last) rest.head? → Boundary word (lastOr w prev) rest.head?

/-- No match touches the ends of a block or lies inside it. -/
def Avoids (word : α → Bool) (r : Regex α) (first : α) (inner : List α) (last : α) : Prop :=
  ∀ {prev w next}, r.Accepts word prev w next →
    w ≠ [] ∧ first ∉ w ∧ last ∉ w ∧ ¬w <:+: inner

theorem seals_of_closes {r : Regex α} (last : α) (hpos : 0 < r.minLength) (hopens : r.Opens)
    (hcloses : r.Closes) : Seals word r last := by
  refine ⟨hpos, hopens, fun h _ => ?_⟩
  obtain ⟨u, hu, -, haccepts⟩ := mem_ends.mp (List.mem_of_mem_head? h)
  obtain rfl := List.append_cancel_right hu
  exact haccepts.closes hcloses

/-- A match that is too long does not lie in a text. -/
theorem Accepts.not_infix_of_length {r : Regex α} {prev next : Option α} {w inner : List α}
    (h : r.Accepts word prev w next) (hinner : inner.length < r.minLength) : ¬w <:+: inner := by
  intro hinfix
  have := h.minLength_le
  have := hinfix.length_le
  omega

/-- A match does not lie in a text that lacks what it needs. -/
theorem Accepts.not_infix_of_needs {r : Regex α} {test : α → Bool} {prev next : Option α}
    {w inner : List α} (h : r.Accepts word prev w next) (hneeds : r.Needs test)
    (hnone : ∀ c ∈ inner, test c = false) : ¬w <:+: inner := by
  intro hinfix
  obtain ⟨c, hc, hpass⟩ := h.needs hneeds
  exact absurd (hpass.symm.trans (hnone c (List.IsInfix.mem hc hinfix))) (by decide)

theorem avoids_of_lacks {r : Regex α} {first last : α} {inner : List α}
    (hpos : 0 < r.minLength) (hfirst : r.lacks first = true) (hlast : r.lacks last = true)
    (hinner : ∀ {prev w next}, r.Accepts word prev w next → ¬w <:+: inner) :
    Avoids word r first inner last :=
  fun h => ⟨h.ne_nil hpos, h.not_mem hfirst, h.not_mem hlast, hinner h⟩

section Blocks

variable {q r : Regex α} {first last : α} {inner : List α}

/-- Characters of the new text that no block begins among were there before. -/
theorem Replaces.back {block : List α} {prev : Option α} {l w rest' : List α}
    (h : Replaces word q (first :: block) prev l (w ++ rest')) (hw : first ∉ w) :
    ∃ rest, l = w ++ rest ∧ Replaces word q (first :: block) (lastOr w prev) rest rest' := by
  induction w generalizing prev l with
  | nil => exact ⟨l, rfl, h⟩
  | cons c w ih =>
    rw [List.cons_append] at h
    generalize hout : c :: (w ++ rest') = out at h
    cases h with
    | nil => cases hout
    | keep _ ht =>
      obtain ⟨rfl, rfl⟩ := List.cons.inj hout
      obtain ⟨rest, rfl, hrest⟩ := ih ht fun hc => hw (List.mem_cons_of_mem _ hc)
      have hlast : lastOr (c :: w) prev = lastOr w (some c) := lastOr_append [c] w prev
      exact ⟨rest, rfl, hlast ▸ hrest⟩
    | hit =>
      obtain ⟨rfl, -⟩ := List.cons.inj hout
      exact absurd List.mem_cons_self hw

/-- The first character of the new text is the old one, or that of a block in the place of a
match. -/
theorem Replaces.head {block : List α} {prev : Option α} {l l' : List α}
    (h : Replaces word q (first :: block) prev l l') :
    l.head? = l'.head? ∨
      ∃ w rest, l = w ++ rest ∧ w ≠ [] ∧ q.Accepts word prev w rest.head? := by
  cases h with
  | nil => exact .inl rfl
  | keep => exact .inl rfl
  | hit hq hw =>
    obtain ⟨u, hu, -, h⟩ := mem_ends.mp (List.mem_of_mem_head? hq)
    obtain rfl := List.append_cancel_right hu
    exact .inr ⟨_, _, rfl, hw, h⟩

variable {follow : Option α → Prop}

/-- A match of the new text that touches no block is one of the old text. -/
theorem Replaces.starts_back {block : List α} {prev prev' : Option α} {l l' : List α}
    (h : Replaces word q (first :: block) prev l l') (hopens : q.Opens)
    (hfirst : ∀ {prev w next}, r.Accepts word prev w next → w ≠ [] ∧ first ∉ w)
    (hfollow : ∀ {prev w next}, q.Accepts word prev w next → follow (headOr w next))
    (hprev : Boundary word prev' l.head? → Boundary word prev l.head?)
    (hstarts : r.Starts word follow prev' l') : r.Starts word follow prev l := by
  obtain ⟨w, rest', rfl, haccepts, hbehind⟩ := hstarts
  obtain ⟨hne, hw⟩ := hfirst haccepts
  obtain ⟨rest, rfl, hrest⟩ := h.back hw
  have hhead : ∀ rest, (w ++ rest).head? = headOr w none := fun rest => by
    rw [head?_append_eq_headOr, headOr_of_ne_nil hne, headOr_of_ne_nil hne]
  refine ⟨w, rest, rfl, haccepts.move (fun hb => ?_) (fun hb => ?_), ?_⟩
  · rw [hhead] at hprev
    rw [headOr_of_ne_nil hne] at hb hprev ⊢
    exact hprev hb
  · rw [lastOr_of_ne_nil hne, ← lastOr_of_ne_nil hne prev] at hb ⊢
    rcases hrest.head with hsame | ⟨u, tail, rfl, hu, hmatch⟩
    · rw [hsame]
      exact hb
    · have := hmatch.opens hopens
      rwa [← head?_append_eq_headOr] at this
  · rcases hrest.head with hsame | ⟨u, tail, rfl, hu, hmatch⟩
    · rw [hsame]
      exact hbehind
    · rw [head?_append_eq_headOr]
      exact hfollow hmatch

/-- No match begins inside a block. -/
theorem not_starts_block (havoids : Avoids word r first inner last) {a s out : List α}
    (hs : first :: (inner ++ [last]) = a ++ s) (hne : s ≠ []) (prev : Option α) :
    ¬r.Starts word follow prev (s ++ out) := by
  rintro ⟨w, rest, hw, haccepts, -⟩
  obtain ⟨hwne, hfirst, hlast, hinner⟩ := havoids haccepts
  obtain ⟨c, w, rfl⟩ := List.exists_cons_of_ne_nil hwne
  cases a with
  | nil =>
    subst hs
    obtain ⟨rfl, -⟩ := List.cons.inj hw
    exact hfirst List.mem_cons_self
  | cons d a =>
    obtain ⟨-, hs⟩ := List.cons.inj hs
    obtain ⟨s, z, rfl⟩ := (List.eq_nil_or_concat' s).resolve_left hne
    obtain ⟨rfl, hz⟩ := List.append_inj' (hs.trans (List.append_assoc a s [z]).symm) rfl
    cases hz
    -- the match stops before the end of the block or runs over it
    rw [List.append_assoc] at hw
    rcases List.append_eq_append_iff.mp hw with ⟨t, ht, hover⟩ | ⟨t, ht, -⟩
    · cases t with
      | nil =>
        rw [List.append_nil] at ht
        exact hinner ⟨a, [], by rw [List.append_nil, ← ht]⟩
      | cons e t =>
        obtain ⟨rfl, -⟩ := List.cons.inj hover
        exact hlast (ht ▸ List.mem_append_right _ List.mem_cons_self)
    · exact hinner ⟨a, t, by rw [List.append_assoc, ← ht]⟩

/-- Where every match of the old text begins at a replaced position, none begins in the new
one. -/
theorem Replaces.no_start {prev : Option α} {l l' : List α}
    (h : Replaces word q (first :: (inner ++ [last])) prev l l') (hseals : Seals word q last)
    (havoids : Avoids word r first inner last)
    (hfollow : ∀ {prev w next}, q.Accepts word prev w next → follow (headOr w next))
    (hfree : ∀ a rest, l = a ++ rest → r.Starts word follow (lastOr a prev) rest →
      q.ends word (lastOr a prev, rest) ≠ [])
    (prev' : Option α) (hprev : Boundary word prev' l.head? → Boundary word prev l.head?)
    (a rest : List α) (hl' : l' = a ++ rest) : ¬r.Starts word follow (lastOr a prev') rest := by
  induction h generalizing prev' a rest with
  | nil =>
    obtain ⟨rfl, rfl⟩ := List.append_eq_nil_iff.mp hl'.symm
    rintro ⟨w, rest, hw, haccepts, -⟩
    exact (havoids haccepts).1 (List.append_eq_nil_iff.mp hw.symm).1
  | @keep prev c l out hq ht ih =>
    cases a with
    | nil =>
      subst hl'
      intro hstarts
      have hfirst : ∀ {prev w next}, r.Accepts word prev w next → w ≠ [] ∧ first ∉ w :=
        fun h => ⟨(havoids h).1, (havoids h).2.1⟩
      exact hfree [] _ rfl
        ((Replaces.keep hq ht).starts_back hseals.opens hfirst hfollow hprev hstarts) hq
    | cons d a =>
      obtain ⟨rfl, rfl⟩ := List.cons.inj hl'
      have hlast : ∀ p, lastOr (c :: a) p = lastOr a (some c) := lastOr_append [c] a
      rw [hlast]
      refine ih (fun b tail hb => ?_) _ id a rest rfl
      have := hfree (c :: b) tail (by rw [hb]; rfl)
      rwa [show lastOr (c :: b) prev = lastOr b (some c) from lastOr_append [c] b prev] at this
  | @hit prev w l out hq hw ht ih =>
    have hnext : ∀ a rest, out = a ++ rest → ¬r.Starts word follow (lastOr a (some last)) rest := by
      refine ih (fun b tail hb => ?_) _ (hseals.close hq)
      have := hfree (w ++ b) tail (by rw [hb, List.append_assoc])
      rwa [lastOr_append] at this
    rcases List.append_eq_append_iff.mp hl' with ⟨t, rfl, rfl⟩ | ⟨t, ht', rfl⟩
    · have hlast : lastOr (first :: (inner ++ [last]) ++ t) prev' = lastOr t (some last) := by
        rw [lastOr_append, ← List.cons_append, lastOr_append]
        rfl
      rw [hlast]
      exact hnext t rest rfl
    · by_cases hne : t = []
      · subst hne
        rw [List.append_nil] at ht'
        have hlast : lastOr a prev' = some last := by
          rw [← ht', ← List.cons_append, lastOr_append]
          rfl
        rw [hlast]
        exact hnext [] out rfl
      · exact not_starts_block havoids ht' hne _

/-- No match, with `follow` behind it, begins anywhere in a text. -/
def NoStart (word : α → Bool) (r : Regex α) (follow : Option α → Prop) (l : List α) : Prop :=
  ∀ a rest, l = a ++ rest → ¬r.Starts word follow a.getLast? rest

theorem noStart_iff {l : List α} :
    NoStart word r (fun _ => True) l ↔ ¬r.HasMatch word l := by
  constructor
  · rintro h ⟨a, w, b, rfl, haccepts⟩
    exact h a (w ++ b) (List.append_assoc a w b) ⟨w, b, rfl, haccepts, trivial⟩
  · rintro h a rest rfl ⟨w, b, rfl, haccepts, -⟩
    exact h ⟨a, w, b, (List.append_assoc a w b).symm, haccepts⟩

/-- A replacement makes no match of an expression that avoids its block. -/
theorem NoStart.replaceAll {l : List α} (h : NoStart word r follow l) (hseals : Seals word q last)
    (havoids : Avoids word r first inner last)
    (hfollow : ∀ {prev w next}, q.Accepts word prev w next → follow (headOr w next)) :
    NoStart word r follow (q.replaceAll word (first :: (inner ++ [last])) l) := by
  intro a rest hl
  have hnone := (replaces_replaceFrom hseals.pos _ none l).no_start hseals havoids hfollow
    (fun b tail hb hstarts => absurd (lastOr_none b ▸ hstarts) (h b tail hb)) none id a rest hl
  rwa [lastOr_none] at hnone

/-- A replacement leaves no match of its own behind. -/
theorem noStart_replaceAll (l : List α) (hseals : Seals word q last)
    (havoids : Avoids word r first inner last)
    (hfollow : ∀ {prev w next}, q.Accepts word prev w next → follow (headOr w next))
    (hstarts : ∀ {prev rest}, r.Starts word follow prev rest →
      q.Starts word (fun _ => True) prev rest) :
    NoStart word r follow (q.replaceAll word (first :: (inner ++ [last])) l) := by
  intro a rest hl
  have hnone := (replaces_replaceFrom hseals.pos _ none l).no_start hseals havoids hfollow
    (fun b tail _ h => ?_) none id a rest hl
  · rwa [lastOr_none] at hnone
  · obtain ⟨w, behind, rfl, haccepts, -⟩ := hstarts h
    exact List.ne_nil_of_mem (mem_ends (q := (lastOr w _, behind)).mpr ⟨w, rfl, rfl, haccepts⟩)

end Blocks

/-! ## The longest match -/

/-- The preferred match of a sequence ends with the preferred match of its second part. -/
theorem head?_ends_seq {r s : Regex α} {p q : Position α}
    (h : ((Regex.seq r s).ends word p).head? = some q) :
    ∃ p' ∈ r.ends word p, (s.ends word p').head? = some q := by
  change ((r.ends word p).flatMap (s.ends word)).head? = some q at h
  generalize r.ends word p = ps at h
  induction ps with
  | nil => cases h
  | cons p' ps ih =>
    rw [List.flatMap_cons, List.head?_append] at h
    cases hs : (s.ends word p').head? with
    | none =>
      rw [hs, Option.none_or] at h
      obtain ⟨p'', hp'', hq⟩ := ih h
      exact ⟨p'', List.mem_cons_of_mem _ hp'', hq⟩
    | some q' =>
      rw [hs, Option.some_or] at h
      exact ⟨p', List.mem_cons_self, hs.trans h⟩

/-- The preferred repetition of a character is the longest. -/
theorem head?_ends_star_one {test : α → Bool} {p q : Position α}
    (h : ((Regex.star (.one test)).ends word p).head? = some q) :
    ∀ c ∈ q.2.head?, test c = false := by
  obtain ⟨prev, l⟩ := p
  change (starEnds _ l.length (prev, l)).head? = some q at h
  induction l generalizing prev with
  | nil =>
    cases h
    simp
  | cons c l ih =>
    rw [List.length_cons, starEnds, ends] at h
    by_cases hc : test c = true
    · rw [if_pos hc, List.flatMap_singleton, if_pos (by simp), List.head?_append] at h
      obtain ⟨q', hq'⟩ : ∃ q', (starEnds (ends word (.one test)) l.length (some c, l)).head? =
          some q' := by
        cases l <;> simp [starEnds]
      rw [hq', Option.some_or] at h
      exact ih _ (hq'.trans h)
    · rw [if_neg hc] at h
      cases h
      simpa using hc

end Regex

end Words

end CartoLive.Lib
