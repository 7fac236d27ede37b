import CartoLive.Store.LiveState

/-!
# The labels of stored rows

The region labels that `ParseTopic` of `topic.go` lets through, and the names that
`PayloadTypeName` of `payload_types.go` gives to payload types. Observations and
edges carry no others, so that what a filter compares is in comparison form.
-/

namespace CartoLive.Store

open CartoLive.Go CartoLive.Live

/-- The characters of `regionPattern`. -/
def regionChar (c : Char) : Bool := c.isAlphanum || c = '_' || c = '-'

/-- The region of `ParseTopic`, from the second part of the topic. -/
def parseRegion (part : String) : Option String :=
  let region := upperTrim part
  if region.toList.all regionChar && 1 ≤ region.length && region.length ≤ 16 then some region
  else none

/-- `PayloadTypeName`. -/
def payloadTypeName : Int → String
  | 0x00 => "REQUEST"
  | 0x01 => "RESPONSE"
  | 0x02 => "PLAIN_TEXT"
  | 0x03 => "ACK"
  | 0x04 => "ADVERT"
  | 0x05 => "GROUP_TEXT"
  | 0x06 => "GROUP_DATA"
  | 0x07 => "ANON_REQUEST"
  | 0x08 => "RETURNED_PATH"
  | 0x09 => "TRACE"
  | 0x0A => "MULTIPART"
  | 0x0B => "CONTROL"
  | 0x0F => "CUSTOM"
  | _ => "RESERVED"

theorem upperTrim_of_parseRegion {part region : String} (h : parseRegion part = some region) :
    upperTrim region = region := by
  unfold parseRegion at h
  dsimp only at h
  split at h
  · rw [← Option.some.inj h, upperTrim_upperTrim]
  · cases h

/-- The characters of `regionPattern`, in numbers. -/
theorem toNat_of_regionChar {c : Char} (h : regionChar c = true) :
    (48 ≤ c.toNat ∧ c.toNat ≤ 57) ∨ (65 ≤ c.toNat ∧ c.toNat ≤ 90) ∨ (97 ≤ c.toNat ∧ c.toNat ≤ 122) ∨
      c.toNat = 95 ∨ c.toNat = 45 := by
  unfold regionChar Char.isAlphanum Char.isAlpha Char.isUpper Char.isLower Char.isDigit at h
  simp only [Bool.or_eq_true, decide_eq_true_eq, Bool.and_eq_true, ge_iff_le, UInt32.le_iff_toNat_le] at h
  have hval : c.val.toNat = c.toNat := rfl
  rw [hval] at h
  rcases h with (((h | h) | h) | h) | h
  · exact Or.inr (Or.inl h)
  · exact Or.inr (Or.inr (Or.inl h))
  · exact Or.inl h
  · rw [h]; decide
  · rw [h]; decide

/-- A region character is shown as it is. -/
theorem regionChar_printed {c : Char} (h : regionChar c = true) :
    isSpace c = false ∧ displayChar c = some c ∧ c.toNat ≠ 0 := by
  have hn := toNat_of_regionChar h
  refine ⟨?_, ?_, by omega⟩
  · simp only [isSpace, Bool.or_eq_false_iff, Bool.and_eq_false_iff, decide_eq_false_iff_not]
    omega
  · have hne : ∀ d : Char, d.toNat ≠ c.toNat → c ≠ d := fun d hd heq => hd (congrArg Char.toNat heq.symm)
    unfold displayChar
    rw [if_neg, if_neg, if_neg]
    · simp only [isControl, Bool.or_eq_true, Bool.and_eq_true, decide_eq_true_eq]
      omega
    · simp only [List.mem_cons, List.not_mem_nil, or_false, not_or]
      refine ⟨⟨hne _ ?_, hne _ ?_, hne _ ?_, hne _ ?_⟩, by omega, by omega, by omega⟩ <;> simp <;> omega
    · simp only [not_or]
      refine ⟨hne _ ?_, hne _ ?_, hne _ ?_⟩ <;> simp <;> omega

theorem fieldsFrom_of_printed {cs word : List Char} (h : ∀ c ∈ cs, isSpace c = false)
    (hne : word ≠ [] ∨ cs ≠ []) : fieldsFrom cs word = [word.reverse ++ cs] := by
  induction cs generalizing word with
  | nil => simpa [fieldsFrom] using hne
  | cons c cs ih =>
    unfold fieldsFrom
    rw [if_neg (by simp [h c (by simp)]), ih (fun d hd => h d (by simp [hd])) (Or.inl (by simp))]
    simp

/-- A region is displayed as it is. -/
theorem publicDisplayText_of_parseRegion {part region : String} (h : parseRegion part = some region) :
    publicDisplayText region 16 = region := by
  have hnormal := upperTrim_of_parseRegion h
  unfold parseRegion at h
  dsimp only at h
  split at h
  swap
  · cases h
  rename_i hlabel
  rw [Option.some.inj h] at hlabel
  simp only [Bool.and_eq_true, List.all_eq_true, decide_eq_true_eq] at hlabel
  obtain ⟨⟨hchars, hpos⟩, hlength⟩ := hlabel
  have hprinted := fun c hc => regionChar_printed (hchars c hc)
  have hne : region.toList ≠ [] := fun hnil => by
    rw [← String.length_toList, hnil] at hpos
    simp at hpos
  have hnul : region.toList.rdropWhile (fun c => c.toNat = 0) = region.toList := by
    rw [List.rdropWhile_eq_self_iff]
    intro hne
    simpa using (hprinted _ (List.getLast_mem hne)).2.2
  have hdisplay : region.toList.filterMap displayChar = region.toList := by
    have hsome : region.toList.filterMap displayChar = region.toList.filterMap some :=
      List.filterMap_congr fun c hc => (hprinted c hc).2.1
    rw [hsome, List.filterMap_some]
  unfold publicDisplayText
  rw [hnul, String.ofList_toList, (of_upperTrim_eq hnormal).1]
  dsimp only
  rw [if_neg (fun heq => hne (by rw [heq]; rfl)), hdisplay, String.ofList_toList, fields,
    fieldsFrom_of_printed (fun c hc => (hprinted c hc).1) (Or.inr hne), if_neg (by omega)]
  simp only [List.reverse_nil, List.nil_append, List.map_cons, List.map_nil, String.ofList_toList]
  have hsingle : " ".intercalate [region] = region := by
    refine String.toList_inj.mp ?_
    rw [String.toList_intercalate]
    simp
  rw [hsingle, List.take_of_length_le (by rw [String.length_toList]; omega), String.ofList_toList]
theorem upperTrim_payloadTypeName (payloadType : Int) :
    upperTrim (payloadTypeName payloadType) = payloadTypeName payloadType := by
  unfold payloadTypeName
  split <;> decide +kernel

/-- Observations carry parsed regions, edges the names of payload types. -/
structure Database.Labelled (db : Database) : Prop where
  regions : ∀ o ∈ db.observations, ∃ part, parseRegion part = some o.iata
  payloads : ∀ edge ∈ db.edges, ∃ payloadType, edge.payloadTypeName = payloadTypeName payloadType

/-- The labels of an edge and its observation are in comparison form. -/
theorem Database.Labelled.joined {db : Database} (h : db.Labelled) {edge : EdgeEvent}
    (hedge : edge ∈ db.edges) :
    upperTrim (db.joined edge).iata = (db.joined edge).iata ∧
      upperTrim (db.joined edge).payloadTypeName = (db.joined edge).payloadTypeName := by
  constructor
  · show upperTrim (((db.observations.find? fun o => o.id = edge.observationID).map
      PacketObservation.iata).getD "") = _
    cases hfind : db.observations.find? fun o => o.id = edge.observationID with
    | none =>
      have hjoined : (db.joined edge).iata = "" := by
        unfold Database.joined
        rw [hfind]
        rfl
      rw [hjoined]
      exact upperTrim_empty
    | some o =>
      have hjoined : (db.joined edge).iata = o.iata := by
        unfold Database.joined
        rw [hfind]
        rfl
      obtain ⟨part, hpart⟩ := h.regions o (List.mem_of_find?_eq_some hfind)
      rw [hjoined]
      exact upperTrim_of_parseRegion hpart
  · obtain ⟨payloadType, hname⟩ := h.payloads edge hedge
    show upperTrim edge.payloadTypeName = edge.payloadTypeName
    rw [hname, upperTrim_payloadTypeName]

end CartoLive.Store
