import CartoLive.Live.Display

/-!
# Displayed text, character by character

`PublicDisplayText` filters the characters and joins the words of what is left
by single blanks. Read from the left, that is a machine with three states
(`squeeze`), which says where each shown character comes from.
-/

namespace CartoLive.Live

open CartoLive.Go

/-! ## Words joined by single blanks -/

/-- What has been read before a character: no word yet, a word, or a word and a blank. -/
inductive Spacing
  | start
  | word
  | gap
  deriving DecidableEq

/-- A blank is read. -/
def Spacing.blank : Spacing → Spacing
  | .start => .start
  | .word | .gap => .gap

/-- The blank that is shown before the next word. -/
def Spacing.lead : Spacing → List Char
  | .gap => [' ']
  | .start | .word => []

/-- A text without its outer blanks and with single blanks inside. -/
def squeeze : Spacing → List Char → List Char
  | _, [] => []
  | st, c :: rest =>
    if isSpace c then squeeze st.blank rest else st.lead ++ c :: squeeze .word rest

/-- The state behind a text. -/
def Spacing.after : Spacing → List Char → Spacing
  | st, [] => st
  | st, c :: rest => Spacing.after (if isSpace c then st.blank else .word) rest

theorem squeeze_cons (st : Spacing) (c : Char) (l : List Char) :
    squeeze st (c :: l) =
      if isSpace c then squeeze st.blank l else st.lead ++ c :: squeeze .word l := rfl

theorem Spacing.after_cons (st : Spacing) (c : Char) (l : List Char) :
    st.after (c :: l) = Spacing.after (if isSpace c then st.blank else .word) l := rfl

theorem squeeze_append (st : Spacing) (u v : List Char) :
    squeeze st (u ++ v) = squeeze st u ++ squeeze (st.after u) v := by
  induction u generalizing st with
  | nil => rfl
  | cons c u ih =>
    rw [List.cons_append, squeeze_cons, squeeze_cons, Spacing.after_cons]
    split
    · exact ih _
    · rw [ih, List.append_assoc, List.cons_append]

theorem Spacing.after_append (st : Spacing) (u v : List Char) :
    st.after (u ++ v) = (st.after u).after v := by
  induction u generalizing st with
  | nil => rfl
  | cons c u ih => exact ih _

/-- A word stays read. -/
theorem Spacing.after_ne_start {st : Spacing} (hst : st ≠ .start) (l : List Char) :
    st.after l ≠ .start := by
  induction l generalizing st with
  | nil => exact hst
  | cons c l ih =>
    refine ih ?_
    split
    · cases st <;> simp_all [Spacing.blank]
    · nofun

/-- Nothing is shown before the first word. -/
theorem squeeze_of_after_start {st : Spacing} {l : List Char} (h : st.after l = .start) :
    squeeze st l = [] := by
  induction l generalizing st with
  | nil => rfl
  | cons c l ih =>
    rw [Spacing.after_cons] at h
    rw [squeeze_cons]
    by_cases hc : isSpace c = true
    · rw [if_pos hc] at h ⊢
      exact ih h
    · rw [if_neg hc] at h
      exact absurd h (Spacing.after_ne_start (by nofun) l)

/-- Blanks show nothing. -/
theorem squeeze_blanks (st : Spacing) {l : List Char} (h : ∀ c ∈ l, isSpace c = true) :
    squeeze st l = [] := by
  induction l generalizing st with
  | nil => rfl
  | cons c l ih =>
    rw [squeeze_cons, if_pos (h c (by simp))]
    exact ih _ fun d hd => h d (List.mem_cons_of_mem _ hd)

/-- Blanks at the start leave no trace. -/
theorem after_start_blanks {l : List Char} (h : ∀ c ∈ l, isSpace c = true) :
    Spacing.start.after l = .start := by
  induction l with
  | nil => rfl
  | cons c l ih =>
    rw [Spacing.after_cons, if_pos (h c (by simp))]
    exact ih fun d hd => h d (List.mem_cons_of_mem _ hd)

/-- The words, each behind a blank. -/
def spaced (words : List (List Char)) : List Char := words.flatMap fun w => ' ' :: w

theorem intercalate_cons (w : List Char) (words : List (List Char)) :
    [' '].intercalate (w :: words) = w ++ spaced words := by
  induction words generalizing w with
  | nil => simp [List.intercalate, spaced]
  | cons v words ih =>
    rw [List.intercalate_cons_cons, ih]
    simp [spaced]

theorem squeeze_gap (l : List Char) :
    squeeze .gap l = spaced (fieldsFrom l []) ∧
      ∀ word, word ≠ [] → word.reverse ++ squeeze .word l = [' '].intercalate (fieldsFrom l word) := by
  induction l with
  | nil =>
    refine ⟨rfl, fun word hword => ?_⟩
    rw [fieldsFrom, if_neg hword, intercalate_cons]
    rfl
  | cons c l ih =>
    constructor
    · rw [squeeze_cons, fieldsFrom]
      split
      · rw [if_pos rfl]
        exact ih.1
      · have hword := ih.2 [c] (List.cons_ne_nil _ _)
        cases hf : fieldsFrom l [c] with
        | nil => simp [hf, List.intercalate] at hword
        | cons w words =>
          rw [hf, intercalate_cons] at hword
          change ' ' :: ([c].reverse ++ squeeze .word l) = ' ' :: (w ++ spaced words)
          rw [hword]
    · intro word hword
      rw [squeeze_cons, fieldsFrom]
      split
      · rw [intercalate_cons]
        exact congrArg _ ih.1
      · rw [← ih.2 (c :: word) (List.cons_ne_nil _ _)]
        simp [Spacing.lead]

/-- The words of a text joined by blanks. -/
theorem squeeze_start (l : List Char) :
    squeeze .start l = [' '].intercalate (fieldsFrom l []) := by
  induction l with
  | nil => rfl
  | cons c l ih =>
    rw [squeeze_cons, fieldsFrom]
    split
    · rw [if_pos rfl]
      exact ih
    · rw [← (squeeze_gap l).2 [c] (List.cons_ne_nil _ _)]
      rfl

/-- Where a shown character that is not a blank comes from. -/
theorem exists_of_squeeze {st : Spacing} {l x z : List Char} {c : Char}
    (h : squeeze st l = x ++ c :: z) (hc : isSpace c = false) :
    ∃ u v, l = u ++ c :: v ∧ x = squeeze st u ++ (st.after u).lead ∧ z = squeeze .word v := by
  induction l generalizing st x with
  | nil => simp [squeeze] at h
  | cons d l ih =>
    rw [squeeze_cons] at h
    split at h
    · rename_i hd
      obtain ⟨u, v, rfl, hx, hz⟩ := ih h
      refine ⟨d :: u, v, rfl, ?_, hz⟩
      rw [squeeze_cons, if_pos hd, Spacing.after_cons, if_pos hd]
      exact hx
    · rename_i hd
      have hword : ∀ x, d :: squeeze .word l = x ++ c :: z → ∃ u v, d :: l = u ++ c :: v ∧
          st.lead ++ x = squeeze st u ++ (st.after u).lead ∧ z = squeeze .word v := by
        intro x hx
        cases x with
        | nil =>
          obtain ⟨rfl, rfl⟩ := List.cons.inj hx
          exact ⟨[], l, rfl, List.append_nil _, rfl⟩
        | cons e x =>
          obtain ⟨rfl, htail⟩ := List.cons.inj hx
          obtain ⟨u, v, rfl, rfl, hz⟩ := ih htail
          refine ⟨d :: u, v, rfl, ?_, hz⟩
          rw [squeeze_cons, if_neg hd, Spacing.after_cons, if_neg hd, List.append_assoc, List.cons_append]
      -- the blank that is shown first is not the character
      cases st with
      | gap =>
        cases x with
        | nil =>
          obtain ⟨rfl, -⟩ := List.cons.inj h
          exact absurd hc (by decide)
        | cons e x =>
          obtain ⟨rfl, htail⟩ := List.cons.inj h
          exact hword x htail
      | start => exact hword x h
      | word => exact hword x h

theorem exists_trimSpace (s : String) :
    ∃ a b, s.toList = a ++ (trimSpace s).toList ++ b ∧ (∀ c ∈ a, isSpace c = true) ∧
      ∀ c ∈ b, isSpace c = true := by
  refine ⟨s.toList.takeWhile isSpace, (s.toList.dropWhile isSpace).rtakeWhile isSpace, ?_,
    fun c hc => List.mem_takeWhile_imp hc, fun c hc => List.mem_rtakeWhile_imp hc⟩
  rw [trimSpace, String.toList_ofList, List.append_assoc, List.rdropWhile_append_rtakeWhile,
    List.takeWhile_append_dropWhile]

/-- The words of what a filter keeps of a text without its trailing NULs and outer blanks, where
the filter drops NULs and keeps of blanks only blanks. -/
theorem toList_intercalate_fields {f : Char → Option Char}
    (hblank : ∀ c d, f c = some d → isSpace c = true → isSpace d = true)
    (hnul : ∀ c : Char, c.toNat = 0 → f c = none) (value : String) :
    (let text := trimSpace (String.ofList (value.toList.rdropWhile fun c => c.toNat = 0))
      if text = "" then "" else " ".intercalate (fields (String.ofList (text.toList.filterMap f)))
      : String).toList = squeeze .start (value.toList.filterMap f) := by
  obtain ⟨a, b, htrim, ha, hb⟩ :=
    exists_trimSpace (String.ofList (value.toList.rdropWhile fun c => c.toNat = 0))
  have hblanks : ∀ l : List Char, (∀ c ∈ l, isSpace c = true) →
      ∀ d ∈ l.filterMap f, isSpace d = true := by
    intro l hl d hd
    obtain ⟨c, hc, hcd⟩ := List.mem_filterMap.mp hd
    exact hblank c d hcd (hl c hc)
  have hnuls : (value.toList.rtakeWhile fun c => c.toNat = 0).filterMap f = [] :=
    List.filterMap_eq_nil_iff.mpr fun c hc => hnul c (by simpa using List.mem_rtakeWhile_imp hc)
  have hkept : value.toList.filterMap f =
      (value.toList.rdropWhile fun c => c.toNat = 0).filterMap f := by
    have hsplit := List.rdropWhile_append_rtakeWhile (p := fun c : Char => decide (c.toNat = 0))
      (l := value.toList)
    rw [← hsplit, List.filterMap_append, hsplit, hnuls, List.append_nil]
  rw [String.toList_ofList] at htrim
  have hshown : squeeze .start (value.toList.filterMap f) =
      squeeze .start ((trimSpace (String.ofList
        (value.toList.rdropWhile fun c => c.toNat = 0))).toList.filterMap f) := by
    rw [hkept]
    refine (congrArg (fun l => squeeze .start (l.filterMap f)) htrim).trans ?_
    rw [List.filterMap_append, List.filterMap_append, squeeze_append, squeeze_append,
      squeeze_blanks _ (hblanks a ha), squeeze_blanks _ (hblanks b hb),
      after_start_blanks (hblanks a ha), List.nil_append, List.append_nil]
  rw [hshown]
  generalize trimSpace _ = text
  dsimp only
  split
  · rename_i hempty
    rw [hempty]
    rfl
  · have hid : (String.toList ∘ String.ofList) = id := funext fun _ => String.toList_ofList
    rw [String.toList_intercalate, fields, List.map_map, hid, List.map_id, String.toList_ofList,
      squeeze_start]
    exact congrArg (fun l => [' '].intercalate (fieldsFrom l [])) String.toList_ofList

/-! ## The shown text -/

/-- The characters that are not dropped. -/
def kept (l : List Char) : List Char := l.filterMap displayChar

/-- A text as `PublicDisplayText` shows it, before it is cut. -/
def displayed (l : List Char) : List Char := squeeze .start (kept l)

theorem kept_append (u v : List Char) : kept (u ++ v) = kept u ++ kept v :=
  List.filterMap_append

theorem isSpace_of_displayChar {c d : Char} (h : displayChar c = some d)
    (hc : isSpace c = true) : isSpace d = true := by
  unfold displayChar at h
  split at h
  · cases h
    decide
  · split at h
    · cases h
    · split at h
      · cases h
      · cases h
        exact hc

theorem displayChar_of_nul {c : Char} (hc : c.toNat = 0) : displayChar c = none := by
  rw [show c = Char.ofNat 0 by rw [← hc, Char.ofNat_toNat]]
  decide

/-- `PublicDisplayText` shows a text and cuts it, if there is a limit. -/
theorem toList_publicDisplayText_ite (value : String) (maxRunes : Nat) :
    (publicDisplayText value maxRunes).toList =
      if maxRunes = 0 then displayed value.toList else (displayed value.toList).take maxRunes := by
  have hshown := toList_intercalate_fields (fun _ _ h => isSpace_of_displayChar h)
    (fun _ => displayChar_of_nul) value
  dsimp only at hshown
  unfold publicDisplayText
  dsimp only
  split
  · rename_i hempty
    rw [if_pos hempty] at hshown
    have hnone : displayed value.toList = [] := hshown.symm
    rw [hnone]
    split
    · rfl
    · exact List.take_nil.symm
  · rename_i hne
    rw [if_neg hne] at hshown
    split
    · exact hshown
    · rw [String.toList_ofList, hshown]
      rfl

theorem toList_publicDisplayText (value : String) {maxRunes : Nat} (hpos : 0 < maxRunes) :
    (publicDisplayText value maxRunes).toList = (displayed value.toList).take maxRunes := by
  rw [toList_publicDisplayText_ite, if_neg (Nat.pos_iff_ne_zero.mp hpos)]

/-! ## Tidy text -/

/-- No blank at the start, none at the end, and no two in a row. -/
structure Tidy (l : List Char) : Prop where
  first : ∀ c ∈ l.head?, isSpace c = false
  last : ∀ c ∈ l.getLast?, isSpace c = false
  single : l.IsChain fun a b => ¬(isSpace a = true ∧ isSpace b = true)

theorem mem_squeeze {st : Spacing} {l : List Char} {c : Char} (h : c ∈ squeeze st l) :
    c = ' ' ∨ c ∈ l ∧ isSpace c = false := by
  induction l generalizing st with
  | nil => cases h
  | cons d l ih =>
    rw [squeeze_cons] at h
    split at h
    · exact (ih h).imp_right fun hl => ⟨List.mem_cons_of_mem _ hl.1, hl.2⟩
    · rename_i hd
      rcases List.mem_append.mp h with hlead | hrest
      · refine .inl ?_
        cases st with
        | gap => exact List.mem_singleton.mp hlead
        | start => cases hlead
        | word => cases hlead
      · rcases List.mem_cons.mp hrest with rfl | hrest
        · exact .inr ⟨List.mem_cons_self, by simpa using hd⟩
        · exact (ih hrest).imp_right fun hl => ⟨List.mem_cons_of_mem _ hl.1, hl.2⟩

theorem squeeze_first (l : List Char) : ∀ c ∈ (squeeze .start l).head?, isSpace c = false := by
  induction l with
  | nil => nofun
  | cons d l ih =>
    rw [squeeze_cons]
    split
    · exact ih
    · rename_i hd
      rintro c ⟨⟩
      simpa using hd

theorem squeeze_last (st : Spacing) (l : List Char) :
    ∀ c ∈ (squeeze st l).getLast?, isSpace c = false := by
  induction l generalizing st with
  | nil => nofun
  | cons d l ih =>
    rw [squeeze_cons]
    split
    · exact ih _
    · rename_i hd
      intro c hc
      rw [List.getLast?_append, List.getLast?_cons, Option.some_or, Option.mem_some_iff] at hc
      cases hlast : (squeeze .word l).getLast? with
      | none =>
        rw [hlast, Option.getD_none] at hc
        subst hc
        simpa using hd
      | some e =>
        rw [hlast, Option.getD_some] at hc
        subst hc
        exact ih .word e (by rw [hlast]; rfl)

theorem squeeze_single (st : Spacing) (l : List Char) :
    (squeeze st l).IsChain fun a b => ¬(isSpace a = true ∧ isSpace b = true) := by
  induction l generalizing st with
  | nil => exact List.IsChain.nil
  | cons d l ih =>
    rw [squeeze_cons]
    split
    · exact ih _
    · rename_i hd
      have hword : (d :: squeeze .word l).IsChain
          fun a b => ¬(isSpace a = true ∧ isSpace b = true) :=
        (ih .word).cons fun _ _ hspace => hd hspace.1
      cases st with
      | gap =>
        show (' ' :: d :: squeeze .word l).IsChain _
        refine hword.cons fun e he hspace => hd ?_
        cases he
        exact hspace.2
      | start => exact hword
      | word => exact hword

theorem length_squeeze_le (st : Spacing) (l : List Char) :
    (squeeze st l).length ≤ st.lead.length + l.length := by
  induction l generalizing st with
  | nil => exact Nat.zero_le _
  | cons d l ih =>
    rw [squeeze_cons]
    split
    · refine (ih _).trans ?_
      cases st <;> simp [Spacing.blank, Spacing.lead]
      omega
    · have hrest := ih .word
      simp only [Spacing.lead, List.length_nil, Nat.zero_add] at hrest
      simp only [List.length_append, List.length_cons]
      omega

theorem tidy_squeeze (l : List Char) : Tidy (squeeze .start l) :=
  { first := squeeze_first l
    last := squeeze_last .start l
    single := squeeze_single .start l }

/-- Words joined by single blanks stay as they are. -/
theorem squeeze_word_of_single {l : List Char} (hblank : ∀ c ∈ l, isSpace c = true → c = ' ')
    (hlast : ∀ c ∈ l.getLast?, isSpace c = false)
    (hsingle : l.IsChain fun a b => ¬(isSpace a = true ∧ isSpace b = true)) :
    squeeze .word l = l ∧
      (l ≠ [] → (∀ c ∈ l.head?, isSpace c = false) → squeeze .gap l = ' ' :: l) := by
  induction l with
  | nil => exact ⟨rfl, fun h => absurd rfl h⟩
  | cons c l ih =>
    have htail : squeeze .word l = l ∧
        (l ≠ [] → (∀ c ∈ l.head?, isSpace c = false) → squeeze .gap l = ' ' :: l) := by
      refine ih (fun d hd => hblank d (List.mem_cons_of_mem _ hd)) (fun d hd => ?_) hsingle.tail
      refine hlast d ?_
      rw [List.getLast?_cons, hd]
      rfl
    constructor
    · rw [squeeze_cons]
      split
      · rename_i hspace
        -- a blank is followed by a word
        have hne : l ≠ [] := by
          rintro rfl
          exact absurd hspace (by rw [hlast c rfl]; nofun)
        obtain ⟨d, l, rfl⟩ := List.exists_cons_of_ne_nil hne
        have hnext : isSpace d = false := by
          have hpair := (List.isChain_cons_cons.mp hsingle).1
          exact Bool.eq_false_iff.mpr fun hd => hpair ⟨hspace, hd⟩
        rw [hblank c List.mem_cons_self hspace]
        exact htail.2 hne fun e he => by cases he; exact hnext
      · show c :: squeeze .word l = c :: l
        rw [htail.1]
    · intro _ hfirst
      rw [squeeze_cons, if_neg (by rw [hfirst c rfl]; nofun), htail.1]
      rfl

theorem Tidy.squeeze_eq {l : List Char} (h : Tidy l)
    (hblank : ∀ c ∈ l, isSpace c = true → c = ' ') : squeeze .start l = l := by
  cases l with
  | nil => rfl
  | cons c l =>
    have hword := (squeeze_word_of_single hblank h.last h.single).2 (List.cons_ne_nil _ _) h.first
    rw [squeeze_cons, if_neg (by rw [h.first c rfl]; nofun)] at hword ⊢
    exact (List.cons.inj hword).2

/-- A text of which a display shows every character. -/
theorem displayed_eq_self {l : List Char} (hkept : ∀ c ∈ l, displayChar c = some c)
    (h : Tidy l) (hblank : ∀ c ∈ l, isSpace c = true → c = ' ') : displayed l = l := by
  have hall : kept l = l := by
    unfold kept
    rw [List.filterMap_congr hkept, List.filterMap_some]
  rw [displayed, hall, h.squeeze_eq hblank]

theorem displayChar_displayChar {c d : Char} (h : displayChar c = some d) :
    displayChar d = some d := by
  unfold displayChar at h
  split at h
  · cases h
    decide
  · split at h
    · cases h
    · split at h
      · cases h
      · rename_i hline hmarkup hcontrol
        cases h
        rw [displayChar, if_neg hline, if_neg hmarkup, if_neg hcontrol]

theorem mem_displayed {l : List Char} {c : Char} (h : c ∈ displayed l) :
    displayChar c = some c ∧ (isSpace c = true → c = ' ') := by
  rcases mem_squeeze h with rfl | ⟨hkept, hspace⟩
  · decide
  · obtain ⟨d, -, hd⟩ := List.mem_filterMap.mp hkept
    exact ⟨displayChar_displayChar hd, fun h => absurd h (by rw [hspace]; nofun)⟩

theorem length_displayed_le (l : List Char) : (displayed l).length ≤ l.length := by
  refine (length_squeeze_le .start (kept l)).trans ?_
  rw [Spacing.lead, List.length_nil, Nat.zero_add]
  exact List.length_filterMap_le _ _

theorem tidy_displayed (l : List Char) : Tidy (displayed l) := tidy_squeeze (kept l)

end CartoLive.Live
