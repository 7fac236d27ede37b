import CartoLive.Live.DisplayText
import CartoLive.Store.PacketPaths

/-!
# Displayed text displayed again

`PublicDisplayText` joins the words of a text and cuts it afterwards. What is
displayed is a clean text that stays as it is when it is displayed again, unless
the cut is right behind a blank. Labels are displayed when an event is published,
when its row is written and when the row is read.
-/

namespace CartoLive.Theorems.DisplayProjection

open CartoLive.Go CartoLive.Live CartoLive.Store

/-! ## What a display promises -/

/-- No control character, no separator of lines or paragraphs, and none of the characters that
delimit markup; 34, 39 and 96 are the three quotation marks. -/
def Harmless (c : Char) : Prop :=
  isControl c = false ∧ c.toNat ≠ 0x2028 ∧ c.toNat ≠ 0x2029 ∧
    c ∉ ['<', '>', '&', '='] ∧ c.toNat ∉ [34, 39, 96]

/-- `PublicDisplayText` shows a text as a clean one, and the clean one as itself. A limit that is
not positive is none. -/
structure Projects (value : String) (maxRunes : Int) : Prop where
  harmless : ∀ c ∈ (publicDisplayText value maxRunes.toNat).toList, Harmless c
  fits : 0 < maxRunes → ((publicDisplayText value maxRunes.toNat).toList.length : Int) ≤ maxRunes
  tidy : Tidy (publicDisplayText value maxRunes.toNat).toList
  again : publicDisplayText (publicDisplayText value maxRunes.toNat) maxRunes.toNat =
    publicDisplayText value maxRunes.toNat

/-- The last character that is shown is the blank before a word that is cut off. -/
def CutBehindBlank (value : String) (maxRunes : Nat) : Prop :=
  0 < maxRunes ∧ (displayed value.toList)[maxRunes - 1]? = some ' '

/-- A name that is a label and is cut behind a blank. -/
def LabelCut (name : String) : Prop :=
  CutBehindBlank name 80 ∧ looksSensitiveHex (publicDisplayText name 80) 8 = false

/-! ## The shown text -/

theorem harmless_of_displayChar {c : Char} (h : displayChar c = some c) : Harmless c := by
  unfold displayChar at h
  split at h
  · cases h
    unfold Harmless
    decide
  · split at h
    · cases h
    · split at h
      · cases h
      · rename_i hmarkup hcontrol
        obtain ⟨hsign, hquote⟩ := not_or.mp hmarkup
        obtain ⟨hcontrol, hseparator⟩ := not_or.mp hcontrol
        obtain ⟨hline, hparagraph⟩ := not_or.mp hseparator
        exact ⟨Bool.eq_false_iff.mpr hcontrol, hline, hparagraph, hsign, hquote⟩

/-- What is shown is the beginning of the displayed text. -/
theorem publicDisplayText_isPrefix (value : String) (maxRunes : Nat) :
    (publicDisplayText value maxRunes).toList <+: displayed value.toList := by
  rw [toList_publicDisplayText_ite]
  split
  · exact List.prefix_rfl
  · exact List.take_prefix _ _

theorem mem_publicDisplayText {value : String} {maxRunes : Nat} {c : Char}
    (h : c ∈ (publicDisplayText value maxRunes).toList) :
    displayChar c = some c ∧ (isSpace c = true → c = ' ') :=
  mem_displayed ((publicDisplayText_isPrefix value maxRunes).mem h)

theorem length_publicDisplayText (value : String) {maxRunes : Nat} (hpos : 0 < maxRunes) :
    (publicDisplayText value maxRunes).toList.length ≤ maxRunes := by
  rw [toList_publicDisplayText value hpos, List.length_take]
  exact Nat.min_le_left _ _

/-- The last character that is shown, where it is not the last one of the text. -/
theorem getLast?_take {l : List Char} {n : Nat} (hpos : 0 < n) (hn : n ≤ l.length) :
    (l.take n).getLast? = l[n - 1]? := by
  rw [List.getLast?_eq_getElem?, List.length_take, Nat.min_eq_left hn,
    List.getElem?_take_of_lt (by omega)]

/-- A text that is not cut behind a blank is tidy. -/
theorem tidy_publicDisplayText {value : String} {maxRunes : Nat}
    (h : ¬CutBehindBlank value maxRunes) : Tidy (publicDisplayText value maxRunes).toList := by
  have htidy := tidy_displayed value.toList
  by_cases hpos : 0 < maxRunes
  · rw [toList_publicDisplayText value hpos]
    refine ⟨fun c hc => htidy.first c ?_, fun c hc => ?_, htidy.single.take maxRunes⟩
    · rwa [List.head?_take, if_neg (by omega)] at hc
    · by_cases hlen : maxRunes ≤ (displayed value.toList).length
      · rw [getLast?_take hpos hlen] at hc
        have hmem := mem_displayed (List.mem_of_getElem? hc)
        refine Bool.eq_false_iff.mpr fun hspace => h ⟨hpos, ?_⟩
        rw [hc, hmem.2 hspace]
      · rw [List.take_of_length_le (by omega)] at hc
        exact htidy.last c hc
  · rwa [toList_publicDisplayText_ite, if_pos (by omega)]

/-- A tidy text is displayed as itself. -/
theorem publicDisplayText_again {value : String} {maxRunes : Nat}
    (h : Tidy (publicDisplayText value maxRunes).toList) :
    publicDisplayText (publicDisplayText value maxRunes) maxRunes =
      publicDisplayText value maxRunes := by
  have hself : displayed (publicDisplayText value maxRunes).toList =
      (publicDisplayText value maxRunes).toList :=
    displayed_eq_self (fun c hc => (mem_publicDisplayText hc).1) h
      fun c hc => (mem_publicDisplayText hc).2
  rw [← String.toList_inj]
  by_cases hpos : 0 < maxRunes
  · rw [toList_publicDisplayText (publicDisplayText value maxRunes) hpos, hself,
      List.take_of_length_le (length_publicDisplayText value hpos)]
  · rw [toList_publicDisplayText_ite (publicDisplayText value maxRunes), if_pos (by omega), hself]

/-- What is displayed again is not cut behind a blank. -/
theorem tidy_again (value : String) (maxRunes : Nat) :
    Tidy (publicDisplayText (publicDisplayText value maxRunes) maxRunes).toList := by
  refine tidy_publicDisplayText fun ⟨hpos, hblank⟩ => ?_
  -- the text that is displayed again has no character behind the limit
  have hshort := (length_displayed_le (publicDisplayText value maxRunes).toList).trans
    (length_publicDisplayText value hpos)
  obtain ⟨hlen, -⟩ := List.getElem?_eq_some_iff.mp hblank
  have hend : (displayed (publicDisplayText value maxRunes).toList).length = maxRunes := by omega
  have hlast := (tidy_displayed (publicDisplayText value maxRunes).toList).last ' '
  rw [List.getLast?_eq_getElem?, hend] at hlast
  exact absurd (hlast hblank) (by decide)

theorem not_tidy_of_cutBehindBlank {value : String} {maxRunes : Nat}
    (h : CutBehindBlank value maxRunes) : ¬Tidy (publicDisplayText value maxRunes).toList := by
  intro htidy
  obtain ⟨hpos, hblank⟩ := h
  have hlast := htidy.last ' '
  obtain ⟨hlen, -⟩ := List.getElem?_eq_some_iff.mp hblank
  rw [toList_publicDisplayText value hpos, getLast?_take hpos (by omega)] at hlast
  exact absurd (hlast hblank) (by decide)

theorem publicDisplayText_again_iff (value : String) (maxRunes : Nat) :
    publicDisplayText (publicDisplayText value maxRunes) maxRunes =
      publicDisplayText value maxRunes ↔ ¬CutBehindBlank value maxRunes := by
  constructor
  · intro h hcut
    exact not_tidy_of_cutBehindBlank hcut (h ▸ tidy_again value maxRunes)
  · exact fun h => publicDisplayText_again (tidy_publicDisplayText h)

theorem projects_iff (value : String) (maxRunes : Int) :
    Projects value maxRunes ↔ ¬CutBehindBlank value maxRunes.toNat := by
  constructor
  · exact fun h => (publicDisplayText_again_iff _ _).mp h.again
  · intro h
    exact
      { harmless := fun c hc => harmless_of_displayChar (mem_publicDisplayText hc).1
        fits := fun hpos => by
          have := length_publicDisplayText value (show 0 < maxRunes.toNat by omega)
          omega
        tidy := tidy_publicDisplayText h
        again := (publicDisplayText_again_iff _ _).mpr h }

/-! ## Labels -/

/-- A label that is displayed once more. -/
theorem publicDisplayText_displayLabel_iff (name role : String) :
    publicDisplayText (displayLabel name role) 80 = displayLabel name role ↔ ¬LabelCut name := by
  unfold displayLabel
  dsimp only
  split
  · rename_i hname
    rw [publicDisplayText_again_iff]
    exact not_congr ⟨fun h => ⟨h, hname.2⟩, And.left⟩
  · rename_i hname
    have hnot : ¬LabelCut name := by
      rintro ⟨⟨hpos, hblank⟩, hhex⟩
      refine hname ⟨fun hempty => ?_, hhex⟩
      obtain ⟨hlen, -⟩ := List.getElem?_eq_some_iff.mp hblank
      have hlist := congrArg String.toList hempty
      rw [toList_publicDisplayText name hpos, String.toList_empty, List.take_eq_nil_iff] at hlist
      rcases hlist with hzero | hnil
      · cases hzero
      · rw [hnil] at hlen
        exact absurd hlen (Nat.not_lt_zero _)
    refine iff_of_true ?_ hnot
    split
    · decide
    split
    · decide
    split
    · decide
    split <;> decide

/-- A label is the same displayed twice more if it is displayed once more. -/
theorem publicDisplayText_twice_iff (name role : String) :
    publicDisplayText (publicDisplayText (displayLabel name role) 80) 80 = displayLabel name role ↔
      ¬LabelCut name := by
  rw [← publicDisplayText_displayLabel_iff name role]
  constructor
  · intro h
    have htwice := publicDisplayText_again (tidy_again (displayLabel name role) 80)
    rwa [h] at htwice
  · intro h
    rw [h, h]

theorem label_sanitizeEndpoint (endpoint : PublicRouteEndpoint) :
    (Database.sanitizeEndpoint endpoint).label = publicDisplayText endpoint.label 80 := by
  simp only [Database.sanitizeEndpoint]

theorem label_publicEndpoint (endpoint : EdgeEndpoint) (index : PathHash3Index) :
    (publicEndpoint endpoint index).label = displayLabel endpoint.name "unknown" := by
  simp only [publicEndpoint]

/-- The labels along a path. -/
def segmentLabels (segments : List PublicRouteSegment) : List (String × String) :=
  segments.map fun segment => (segment.source.label, segment.target.label)

/-- The labels of a packet path as a row is read. -/
theorem segmentLabels_sanitize (packet : PublicPacketPath) :
    segmentLabels (sanitizeProjectedPacketPath packet).segments =
      packet.segments.map fun segment =>
        (publicDisplayText segment.source.label 80, publicDisplayText segment.target.label 80) := by
  unfold sanitizeProjectedPacketPath segmentLabels
  rw [List.map_map]
  refine List.map_congr_left fun segment _ => ?_
  dsimp only [Function.comp_apply]
  rw [label_sanitizeEndpoint, label_sanitizeEndpoint]

/-- The labels of the segments that are published. -/
theorem segmentLabels_publicSegment (segments : List EdgeSegment) (index : PathHash3Index) :
    segmentLabels (segments.map (publicSegment index)) = segments.map fun segment =>
      (displayLabel segment.source.name "unknown", displayLabel segment.target.name "unknown") := by
  unfold segmentLabels
  rw [List.map_map]
  refine List.map_congr_left fun segment _ => ?_
  rw [Function.comp_apply]
  dsimp only [publicSegment]
  rw [label_publicEndpoint, label_publicEndpoint]

/-- Texts are projected onto displayed ones, and the labels of an edge are read back as they are
published: those of its packet path, which are displayed again when the row is read, and those of
a route summary, which are displayed again when the row is written and when it is read. -/
theorem display_projects_iff [LiveEnv] :
    (∀ value maxRunes, Projects value maxRunes ↔ ¬CutBehindBlank value maxRunes.toNat) ∧
      (∀ edge index (packet : PublicPacketPath),
        segmentLabels (sanitizeProjectedPacketPath { packet with
          segments := (mappableSegments edge).map (publicSegment index) }).segments =
            segmentLabels ((mappableSegments edge).map (publicSegment index)) ↔
          ∀ segment ∈ mappableSegments edge,
            ¬LabelCut segment.source.name ∧ ¬LabelCut segment.target.name) ∧
      ∀ edge index segment maxCount,
        ((Database.readSummary maxCount
              (Database.summaryRow edge (publicSegment index segment))).source.label =
            (publicSegment index segment).source.label ↔ ¬LabelCut segment.source.name) ∧
          ((Database.readSummary maxCount
              (Database.summaryRow edge (publicSegment index segment))).target.label =
            (publicSegment index segment).target.label ↔ ¬LabelCut segment.target.name) := by
  refine ⟨projects_iff, fun edge index packet => ?_, fun edge index segment maxCount => ?_⟩
  · rw [segmentLabels_sanitize, segmentLabels_publicSegment, List.map_map, List.map_inj_left]
    refine forall₂_congr fun segment _ => ?_
    rw [← publicDisplayText_displayLabel_iff segment.source.name "unknown",
      ← publicDisplayText_displayLabel_iff segment.target.name "unknown", Prod.mk_inj]
    dsimp only [Function.comp_apply, publicSegment]
    rw [label_publicEndpoint, label_publicEndpoint]
  · dsimp only [Database.readSummary, Database.summaryRow, publicSegment]
    simp only [label_sanitizeEndpoint, label_publicEndpoint]
    exact ⟨publicDisplayText_twice_iff segment.source.name "unknown",
      publicDisplayText_twice_iff segment.target.name "unknown"⟩

/-- A name of 81 characters whose 80th is a blank. -/
def cutName : String := String.ofList (List.replicate 79 'a' ++ [' ', 'b'])

theorem cut_name_not_projected :
    ¬((∀ value maxRunes, Projects value maxRunes) ∧
      ∀ name role, publicDisplayText (displayLabel name role) 80 = displayLabel name role) := by
  intro h
  have hlist : cutName.toList = List.replicate 79 'a' ++ [' ', 'b'] := String.toList_ofList
  have hblank : (displayed (List.replicate 79 'a' ++ [' ', 'b']))[79]? = some ' ' := by
    decide +kernel
  exact (projects_iff cutName 80).mp (h.1 cutName 80) ⟨Nat.succ_pos 79, hlist ▸ hblank⟩

end CartoLive.Theorems.DisplayProjection
