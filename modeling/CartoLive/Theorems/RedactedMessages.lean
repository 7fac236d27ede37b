import CartoLive.Live.DisplayText
import CartoLive.Live.Redaction

/-!
# Redaction and display

`publicMessageText` and `publicMessageSender` redact a text and only then drop,
rewrite and cut characters for display. Redaction leaves no match of its
expressions, so that a match in the displayed text comes from a stretch that
the display has edited.
-/

namespace CartoLive.Theorems.RedactedMessages

open CartoLive.Go CartoLive.Lib CartoLive.Live

/-- None of the expressions matches. -/
def Clean (text : String) : Prop := ∀ r ∈ redactionPatterns, ¬r.HasMatch isWordChar text.toList

/-- A character that is shown as it is. -/
def Plain (c : Char) : Prop := displayChar c = some c ∧ isSpace c = false

/-- The stretch `s` of a redacted text reads as a match of `r` once the text is displayed, and
the display has a part in it: it changes the stretch, drops a character beside it, or cuts the
text right behind it. -/
structure Joined (maxRunes : Nat) (r : Regex Char) (before s after : List Char) : Prop where
  first : ∃ c ∈ s.head?, Plain c
  last : ∃ c ∈ s.getLast?, Plain c
  fits : (displayed (before ++ s)).length ≤ maxRunes
  reads : r.Accepts isWordChar (kept before).getLast? (displayed s)
    (if (displayed (before ++ s)).length < maxRunes then (kept after).head? else none)
  edited : displayed s ≠ s ∨ (∃ c ∈ before.getLast?, displayChar c = none) ∨
    (∃ c ∈ after.head?, displayChar c = none) ∨ (displayed (before ++ s)).length = maxRunes

/-- Some stretch of a redacted text is joined to a match. -/
def Exposed (maxRunes : Nat) (text : String) : Prop :=
  ∃ r ∈ redactionPatterns, ∃ before s after, text.toList = before ++ s ++ after ∧
    Joined maxRunes r before s after

/-! ## Words and blanks -/

theorem isWordChar_of_isSpace {c : Char} (h : isSpace c = true) : isWordChar c = false := by
  have hle : ∀ a b : Char, decide (a ≤ b) = decide (a.toNat ≤ b.toNat) := fun a b =>
    decide_eq_decide.mpr Iff.rfl
  have hunderscore : decide (c = '_') = decide (c.toNat = 95) :=
    decide_eq_decide.mpr (Char.toNat_inj (d := '_')).symm
  have ha : ('a').toNat = 97 := rfl
  have hz : ('z').toNat = 122 := rfl
  have hA : ('A').toNat = 65 := rfl
  have hZ : ('Z').toNat = 90 := rfl
  have h0 : ('0').toNat = 48 := rfl
  have h9 : ('9').toNat = 57 := rfl
  have hn : c.toNat ≤ 32 ∨ 133 ≤ c.toNat := by
    simp only [isSpace, Bool.or_eq_true, Bool.and_eq_true, decide_eq_true_eq] at h
    omega
  rw [isWordChar, hle, hle, hle, hle, hle, hle, hunderscore, ha, hz, hA, hZ, h0, h9]
  simp only [Bool.or_eq_false_iff, Bool.and_eq_false_iff, decide_eq_false_iff_not]
  omega

/-- What is shown of a character belongs to words as the character does. -/
theorem isWordChar_displayChar {c d : Char} (h : displayChar c = some d) :
    isWordChar d = isWordChar c := by
  unfold displayChar at h
  split at h
  · rename_i hc
    cases h
    rcases hc with rfl | rfl | rfl <;> decide
  · split at h
    · cases h
    · split at h
      · cases h
      · cases h
        rfl

theorem any_word_of_isSpace {c : Char} (h : isSpace c = true) :
    (some c).any isWordChar = false := isWordChar_of_isSpace h

/-- The first character behind a blank is a blank, or there is none. -/
theorem head?_squeeze_gap (l : List Char) : (squeeze .gap l).head?.any isWordChar = false := by
  induction l with
  | nil => rfl
  | cons c l ih =>
    rw [squeeze_cons]
    split
    · exact ih
    · exact any_word_of_isSpace (c := ' ') (by decide)

/-- Behind a word, the next shown character belongs to it as the next kept one does. -/
theorem any_word_head?_squeeze (l : List Char) :
    (squeeze .word l).head?.any isWordChar = l.head?.any isWordChar := by
  cases l with
  | nil => rfl
  | cons c l =>
    rw [squeeze_cons]
    split
    · rename_i hc
      rw [List.head?_cons, any_word_of_isSpace hc]
      exact head?_squeeze_gap l
    · rfl

/-- Before a word, the last shown character belongs to words as the last kept one does. -/
theorem any_word_getLast?_squeeze (l : List Char) :
    (squeeze .start l ++ (Spacing.start.after l).lead).getLast?.any isWordChar =
      l.getLast?.any isWordChar := by
  induction l using List.reverseRecOn with
  | nil => rfl
  | append_singleton l c ih =>
    rw [squeeze_append, Spacing.after_append, List.getLast?_concat, squeeze_cons, Spacing.after_cons]
    change (_ ++ (if isSpace c then [] else _) ++ Spacing.lead (if isSpace c then _ else _)).getLast?.any
      isWordChar = _
    split
    · rename_i hc
      rw [any_word_of_isSpace hc, List.append_nil]
      cases hafter : Spacing.start.after l with
      | start =>
        rw [squeeze_of_after_start hafter]
        rfl
      | word =>
        rw [Spacing.blank, Spacing.lead, List.getLast?_concat]
        exact any_word_of_isSpace (by decide)
      | gap =>
        rw [Spacing.blank, Spacing.lead, List.getLast?_concat]
        exact any_word_of_isSpace (by decide)
    · rw [Spacing.lead, List.append_nil, ← List.append_assoc]
      exact congrArg (Option.any isWordChar) List.getLast?_concat

/-- A shown character is a single blank or printed. -/
theorem isSpace_of_mem_squeeze {st : Spacing} {l : List Char} {c : Char} (h : c ∈ squeeze st l)
    (hc : c ≠ ' ') : isSpace c = false := by
  induction l generalizing st with
  | nil => cases h
  | cons d l ih =>
    rw [squeeze_cons] at h
    split at h
    · exact ih h
    · rename_i hd
      rcases List.mem_append.mp h with h | h
      · cases st with
        | gap => exact absurd (List.mem_singleton.mp h) hc
        | start => cases h
        | word => cases h
      · rcases List.mem_cons.mp h with rfl | h
        · simpa using hd
        · exact ih h

/-! ## From the redacted text to the shown one -/

/-- A stretch that begins and ends with characters that are shown, and its surroundings. -/
theorem displayed_split (before after : List Char) {s : List Char} (hfirst : ∃ c ∈ s.head?, Plain c)
    (hlast : ∃ c ∈ s.getLast?, Plain c) :
    displayed (before ++ s ++ after) =
        squeeze .start (kept before) ++ (Spacing.start.after (kept before)).lead ++ displayed s ++
          squeeze .word (kept after) ∧
      displayed (before ++ s) =
        squeeze .start (kept before) ++ (Spacing.start.after (kept before)).lead ++ displayed s := by
  obtain ⟨c, hc, hplain, hprinted⟩ := hfirst
  obtain ⟨rest, rfl⟩ := List.head?_eq_some_iff.mp hc
  have hkept : kept (c :: rest) = c :: kept rest := by
    rw [kept, List.filterMap_cons_some hplain]
    rfl
  have hstretch : ∀ st, squeeze st (kept (c :: rest)) = st.lead ++ displayed (c :: rest) := by
    intro st
    rw [displayed, hkept, squeeze_cons, squeeze_cons, hprinted]
    rfl
  have hword : ∀ st : Spacing, st.after (kept (c :: rest)) = .word := by
    intro st
    obtain ⟨d, hd, hplain', hprinted'⟩ := hlast
    obtain ⟨init, hinit⟩ := List.getLast?_eq_some_iff.mp hd
    rw [hinit, kept_append, Spacing.after_append, kept, kept, List.filterMap_cons_some hplain',
      List.filterMap_nil, Spacing.after_cons, hprinted']
    rfl
  have hboth : displayed (before ++ (c :: rest)) =
      squeeze .start (kept before) ++ (Spacing.start.after (kept before)).lead ++
        displayed (c :: rest) := by
    rw [displayed, kept_append, squeeze_append, hstretch, List.append_assoc]
  refine ⟨?_, hboth⟩
  rw [← hboth]
  show squeeze .start (kept (before ++ (c :: rest) ++ after)) = _
  rw [kept_append, squeeze_append, kept_append, Spacing.after_append, hword]
  rw [displayed, kept_append]

/-- A stretch that is joined is a match of the displayed text. -/
theorem Joined.hasMatch {maxRunes : Nat} {r : Regex Char} {before s after : List Char}
    (h : Joined maxRunes r before s after) :
    r.HasMatch isWordChar ((displayed (before ++ s ++ after)).take maxRunes) := by
  obtain ⟨hall, hupto⟩ := displayed_split before after h.first h.last
  have hfits := h.fits
  have hreads := h.reads
  rw [hupto] at hfits hreads
  rw [hall]
  generalize hx : squeeze .start (kept before) ++ (Spacing.start.after (kept before)).lead = x at *
  refine ⟨x, displayed s, (squeeze .word (kept after)).take (maxRunes - (x ++ displayed s).length), ?_, ?_⟩
  · rw [List.take_append, List.take_of_length_le hfits]
  · refine hreads.congr ?_ ?_
    · rw [← hx, any_word_getLast?_squeeze]
    · split
      · rename_i hroom
        rw [List.head?_take, if_neg (by omega), any_word_head?_squeeze]
      · rename_i hfull
        have hnone : maxRunes - (x ++ displayed s).length = 0 := by omega
        rw [hnone, List.take_zero]
        rfl

theorem eq_of_displayChar {a c : Char} (h : displayChar a = some c) (hc : isSpace c = false) :
    a = c := by
  unfold displayChar at h
  split at h
  · cases h
    exact absurd hc (by decide)
  · split at h
    · cases h
    · split at h
      · cases h
      · exact Option.some.inj h

/-- Where a stretch of kept characters comes from that ends with a printed one. -/
theorem exists_kept_append {l m kb : List Char}
    (h : kept l = m ++ kb) (hm : m = [] ∨ ∃ m' d, m = m' ++ [d] ∧ isSpace d = false) :
    ∃ s after, l = s ++ after ∧ kept s = m ∧ kept after = kb ∧
      (s = [] ∨ ∃ d ∈ s.getLast?, Plain d) := by
  rcases hm with rfl | ⟨m, d, rfl, hd⟩
  · exact ⟨[], l, rfl, rfl, h, .inl rfl⟩
  · rw [List.append_assoc] at h
    obtain ⟨l₁, l₂, rfl, rfl, hl₂⟩ := List.filterMap_eq_append_iff.mp h
    obtain ⟨p, a, q, rfl, hp, ha, rfl⟩ := List.filterMap_eq_cons_iff.mp hl₂
    obtain rfl := eq_of_displayChar ha hd
    refine ⟨l₁ ++ (p ++ [a]), q, by simp, ?_, rfl, .inr ⟨a, ?_, ha, hd⟩⟩
    · have hdropped : kept p = [] := List.filterMap_eq_nil_iff.mpr hp
      rw [kept_append, kept_append, hdropped, List.nil_append, kept, kept,
        List.filterMap_cons_some ha]
      rfl
    · rw [← List.append_assoc]
      exact List.getLast?_concat

/-- Where a stretch of the shown text comes from. -/
theorem exists_stretch {l x w y : List Char} (h : displayed l = x ++ w ++ y) (hw : w ≠ [])
    (hfirst : w.head? ≠ some ' ') (hlast : w.getLast? ≠ some ' ') :
    ∃ before s after, l = before ++ s ++ after ∧ (∃ c ∈ s.head?, Plain c) ∧
      (∃ c ∈ s.getLast?, Plain c) ∧ displayed s = w ∧
      x = squeeze .start (kept before) ++ (Spacing.start.after (kept before)).lead ∧
      y = squeeze .word (kept after) := by
  have hprinted : ∀ c ∈ w, c ≠ ' ' → isSpace c = false := fun c hc hne =>
    isSpace_of_mem_squeeze (show c ∈ displayed l by rw [h]; simp [hc]) hne
  obtain ⟨c, w, rfl⟩ := List.exists_cons_of_ne_nil hw
  have hc : isSpace c = false := hprinted c (by simp) (by simpa using hfirst)
  rw [List.append_assoc] at h
  obtain ⟨u, v, hkept, rfl, hv⟩ := exists_of_squeeze h hc
  -- the kept characters up to the end of the stretch
  obtain ⟨m, kb, rfl, hm, hwm, hkb⟩ : ∃ m kb, v = m ++ kb ∧
      (m = [] ∨ ∃ m' d, m = m' ++ [d] ∧ isSpace d = false) ∧ w = squeeze .word m ∧
        y = squeeze .word kb := by
    rcases List.eq_nil_or_concat' w with rfl | ⟨w, d, rfl⟩
    · exact ⟨[], v, rfl, .inl rfl, rfl, hv⟩
    · have hd : isSpace d = false := by
        refine hprinted d (by simp) fun hblank => hlast ?_
        rw [hblank, ← List.cons_append, List.getLast?_concat]
      have hv' : squeeze .word v = w ++ d :: y := hv.symm.trans (List.append_assoc w [d] y)
      obtain ⟨m, kb, rfl, rfl, hkb⟩ := exists_of_squeeze hv' hd
      refine ⟨m ++ [d], kb, by simp, .inr ⟨m, d, rfl, hd⟩, ?_, hkb⟩
      rw [squeeze_append, squeeze_cons, hd, List.append_assoc]
      rfl
  obtain ⟨l₁, l₂, rfl, rfl, hl₂⟩ := List.filterMap_eq_append_iff.mp hkept
  obtain ⟨p, a, q, rfl, hp, ha, hq⟩ := List.filterMap_eq_cons_iff.mp hl₂
  obtain rfl := eq_of_displayChar ha hc
  obtain ⟨s, after, rfl, hs, rfl, hends⟩ := exists_kept_append hq hm
  have hbefore : kept (l₁ ++ p) = List.filterMap displayChar l₁ := by
    have hdropped : kept p = [] := List.filterMap_eq_nil_iff.mpr hp
    rw [kept_append, hdropped, List.append_nil]
    rfl
  refine ⟨l₁ ++ p, a :: s, after, by simp, ⟨a, rfl, ha, hc⟩, ?_, ?_, by rw [hbefore], hkb⟩
  · rcases hends with rfl | ⟨d, hd, hplain⟩
    · exact ⟨a, rfl, ha, hc⟩
    · refine ⟨d, ?_, hplain⟩
      obtain ⟨init, rfl⟩ := List.getLast?_eq_some_iff.mp hd
      rw [← List.cons_append]
      exact List.getLast?_concat
  · rw [displayed, kept, List.filterMap_cons_some ha, squeeze_cons, hc, hwm, ← hs]
    rfl

/-- No match is empty, and none begins or ends with a blank. -/
theorem redactionPatterns_printed : ∀ r ∈ redactionPatterns,
    0 < r.minLength ∧ r.beginsWith ' ' = false ∧ r.endsWith ' ' = false := by
  decide

/-- A neighbour that is not dropped is to words what is kept of it. -/
theorem any_word_neighbour {o : Option Char} (h : ¬∃ c ∈ o, displayChar c = none) :
    (o.bind displayChar).any isWordChar = o.any isWordChar := by
  cases o with
  | none => rfl
  | some c =>
    obtain ⟨d, hd⟩ := Option.ne_none_iff_exists'.mp fun hnone => h ⟨c, rfl, hnone⟩
    rw [Option.bind_some, hd]
    exact isWordChar_displayChar hd

theorem getLast?_kept {l : List Char} (h : ¬∃ c ∈ l.getLast?, displayChar c = none) :
    (kept l).getLast?.any isWordChar = l.getLast?.any isWordChar := by
  rw [← any_word_neighbour h]
  rcases List.eq_nil_or_concat' l with rfl | ⟨l, c, rfl⟩
  · rfl
  · rw [List.getLast?_concat] at h ⊢
    obtain ⟨d, hd⟩ := Option.ne_none_iff_exists'.mp fun hnone => h ⟨c, rfl, hnone⟩
    rw [kept_append, kept, kept, List.filterMap_cons_some hd, List.filterMap_nil,
      List.getLast?_concat, Option.bind_some, hd]

theorem head?_kept {l : List Char} (h : ¬∃ c ∈ l.head?, displayChar c = none) :
    (kept l).head?.any isWordChar = l.head?.any isWordChar := by
  rw [← any_word_neighbour h]
  cases l with
  | nil => rfl
  | cons c l =>
    obtain ⟨d, hd⟩ := Option.ne_none_iff_exists'.mp fun hnone => h ⟨c, rfl, hnone⟩
    rw [kept, List.filterMap_cons_some hd, List.head?_cons, List.head?_cons, Option.bind_some,
      hd]

/-- A match of the displayed text is a joined stretch, where the text itself has no match. -/
theorem exists_joined {maxRunes : Nat} {r : Regex Char} {l : List Char}
    (hr : r ∈ redactionPatterns) (hclean : ¬r.HasMatch isWordChar l)
    (h : r.HasMatch isWordChar ((displayed l).take maxRunes)) :
    ∃ before s after, l = before ++ s ++ after ∧ Joined maxRunes r before s after := by
  obtain ⟨x, w, y, htake, hreads⟩ := h
  obtain ⟨hpos, hbegins, hends⟩ := redactionPatterns_printed r hr
  have hshown : displayed l = x ++ w ++ (y ++ (displayed l).drop maxRunes) := by
    rw [← List.append_assoc, ← htake, List.take_append_drop]
  obtain ⟨before, s, after, rfl, hfirst, hlast, rfl, rfl, hafter⟩ :=
    exists_stretch hshown (hreads.ne_nil hpos) (hreads.head?_ne hbegins) (hreads.getLast?_ne hends)
  obtain ⟨hall, hupto⟩ := displayed_split before after hfirst hlast
  have hfits : (displayed (before ++ s)).length ≤ maxRunes := by
    rw [hupto]
    have := congrArg List.length htake
    rw [List.length_take, List.length_append] at this
    omega
  -- what follows in the displayed text is what follows in the kept one, up to the cut
  have hbehind : y.head?.any isWordChar =
      (if (displayed (before ++ s)).length < maxRunes then (kept after).head? else none).any
        isWordChar := by
    have hy : y = (squeeze .word (kept after)).take (maxRunes - (displayed (before ++ s)).length) := by
      rw [hall, ← hupto, List.take_append, List.take_of_length_le hfits] at htake
      exact (List.append_cancel_left htake).symm
    split
    · rw [hy, List.head?_take, if_neg (by omega), any_word_head?_squeeze]
    · rw [hy, show maxRunes - (displayed (before ++ s)).length = 0 by omega, List.take_zero]
      rfl
  have hreads' := hreads.congr (any_word_getLast?_squeeze (kept before)) hbehind
  refine ⟨before, s, after, rfl, hfirst, hlast, hfits, hreads', ?_⟩
  by_contra hplain
  obtain ⟨hsame, hbefore, hbeside, hcut⟩ := by simpa only [not_or] using hplain
  rw [not_not.mp hsame, if_pos (by omega)] at hreads'
  exact hclean ⟨before, s, after, rfl,
    hreads'.congr (getLast?_kept hbefore) (head?_kept hbeside)⟩

/-! ## The boundary -/

/-- Outer blanks hide no match. -/
theorem clean_trimSpace {text : String} (h : Clean text) : Clean (trimSpace text) := by
  obtain ⟨a, b, htext, ha, hb⟩ := exists_trimSpace text
  rintro r hr ⟨x, w, y, htrim, hreads⟩
  refine h r hr ⟨a ++ x, w, y ++ b, by rw [htext, htrim]; simp, hreads.congr ?_ ?_⟩
  · rw [List.getLast?_append]
    cases x.getLast? with
    | some c => rfl
    | none =>
      cases hlast : a.getLast? with
      | none => rfl
      | some c => exact (any_word_of_isSpace (ha c (List.mem_of_getLast? hlast))).symm
  · rw [List.head?_append]
    cases y.head? with
    | some c => rfl
    | none =>
      cases hfirst : b.head? with
      | none => rfl
      | some c => exact (any_word_of_isSpace (hb c (List.mem_of_mem_head? hfirst))).symm

/-- A text without matches is displayed without matches exactly when no stretch is joined. -/
theorem clean_publicDisplayText_iff {text : String} {maxRunes : Nat} (hclean : Clean text)
    (hpos : 0 < maxRunes) :
    Clean (publicDisplayText text maxRunes) ↔ ¬Exposed maxRunes text := by
  constructor
  · rintro h ⟨r, hr, before, s, after, htext, hjoined⟩
    refine h r hr ?_
    rw [toList_publicDisplayText text hpos, htext]
    exact hjoined.hasMatch
  · intro h r hr hmatch
    rw [toList_publicDisplayText text hpos] at hmatch
    obtain ⟨before, s, after, htext, hjoined⟩ := exists_joined hr (hclean r hr) hmatch
    exact h ⟨r, hr, before, s, after, htext, hjoined⟩

/-- The text and the sender of a message leave without a match of the redaction expressions
exactly when display joins no stretch of the redacted text to one. -/
theorem redaction_survives_iff (bounds : CoordinateBounds) (strength : Int → Int → Int)
    (value : String) :
    let _ := redactingEnv bounds strength
    (Clean (publicMessageText value) ↔
        ¬Exposed 500 (redactPublicMessageText (trimSpace value))) ∧
      (Clean (publicMessageSender value) ↔
        ¬Exposed 80 (redactPublicMessageText (trimSpace value))) := by
  intro _
  have hclean : Clean (redactPublicMessageText (trimSpace value)) :=
    clean_trimSpace (not_hasMatch_replaceSecrets (trimSpace value))
  unfold publicMessageText publicMessageSender
  by_cases hempty : trimSpace value = ""
  · -- nothing is redacted and nothing displayed
    have hnothing : redactPublicMessageText "" = "" :=
      show trimSpace (replaceSecrets "") = "" by decide +kernel
    rw [hempty, if_pos rfl, if_pos rfl, hnothing]
    rw [hempty, hnothing] at hclean
    have hblank : ∀ n, publicDisplayText "" n = "" := fun n => rfl
    have hshown : ∀ n, 0 < n → (Clean "" ↔ ¬Exposed n "") := by
      intro n hn
      have hiff := clean_publicDisplayText_iff hclean hn
      rwa [hblank] at hiff
    exact ⟨hshown 500 (by omega), hshown 80 (by omega)⟩
  · rw [if_neg hempty, if_neg hempty]
    exact ⟨clean_publicDisplayText_iff hclean (by omega),
      clean_publicDisplayText_iff hclean (by omega)⟩

/-- An identifier with an angle bracket inside is not redacted, and the bracket is dropped. -/
theorem bracketed_id_leaks :
    ¬∀ (bounds : CoordinateBounds) (strength : Int → Int → Int) (value : String),
      let _ := redactingEnv bounds strength
      Clean (publicMessageText value) ∧ Clean (publicMessageSender value) := by
  intro h
  have hclean := (h worldCoordinateBounds (fun _ _ => 4) "0123456789<ABCDEF").1
  have hshown : @publicMessageText (redactingEnv worldCoordinateBounds fun _ _ => 4)
      "0123456789<ABCDEF" = "0123456789ABCDEF" := by decide +kernel
  refine hclean publicLongHexRE (by simp [redactionPatterns]) ?_
  rw [hshown]
  have hends : (some 'F', []) ∈
      publicLongHexRE.ends isWordChar (none, "0123456789ABCDEF".toList) := by decide +kernel
  obtain ⟨w, hw, -, hreads⟩ := Regex.mem_ends.mp hends
  exact ⟨[], w, [], hw, hreads⟩

end CartoLive.Theorems.RedactedMessages
