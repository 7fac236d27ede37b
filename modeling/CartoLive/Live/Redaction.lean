import CartoLive.Lib.Regex
import CartoLive.Live.Display

/-!
# What is taken out of messages

The four expressions of `redactPublicMessageText`, and what their replacement
leaves: a text in which none of them matches (`not_hasMatch_replaceSecrets`).
-/

namespace CartoLive.Live

open CartoLive.Go CartoLive.Lib

/-! ## The expressions -/

/-- The characters between which `\b` sees no boundary. -/
def isWordChar (c : Char) : Bool :=
  ('a' ≤ c && c ≤ 'z') || ('A' ≤ c && c ≤ 'Z') || ('0' ≤ c && c ≤ '9') || c = '_'

/-- A small letter under `(?i)`: 0x212A is the Kelvin sign and 0x17F the long s. -/
def foldsTo (letter c : Char) : Bool :=
  c = letter || c = letter.toUpper || (letter = 'k' && c.toNat = 0x212A) ||
    (letter = 's' && c.toNat = 0x17F)

/-- A text under `(?i)`. -/
def literal (s : String) : Regex Char :=
  s.toList.foldr (fun letter r => .seq (.one (foldsTo letter)) r) .empty

/-- `\s`. -/
def isBlank (c : Char) : Bool := c.toNat ∈ [9, 10, 12, 13, 32]

/-- `[\w.-]` under `(?i)`. -/
def isNameChar (c : Char) : Bool :=
  isWordChar c || c = '.' || c = '-' || c.toNat = 0x212A || c.toNat = 0x17F

/-- `[A-Za-z0-9+/]`. -/
def isBase64Char (c : Char) : Bool := (isWordChar c && c ≠ '_') || c = '+' || c = '/'

/-- One of several expressions. -/
def anyOf (rs : List (Regex Char)) : Regex Char := rs.foldr .alt (.one fun _ => false)

/-- `\b(?:broker|resolver|debug|secret|token|key|hash|payload|path)[\w.-]*\s*[:=]\s*`, what the
value of a secret pair follows. -/
def secretPairStart : Regex Char :=
  .seq .boundary <|
  .seq (anyOf (["broker", "resolver", "debug", "secret", "token", "key", "hash", "payload",
    "path"].map literal)) <|
  .seq (.star (.one isNameChar)) <|
  .seq (.star (.one isBlank)) <|
  .seq (.one fun c => c = ':' || c = '=') (.star (.one isBlank))

/-- `publicSecretPairRE`: a pair with its value, `\S+`. -/
def publicSecretPairRE : Regex Char :=
  .seq secretPairStart (.atLeast 1 (.one fun c => !isBlank c))

/-- `publicPathHexRE`: `\b(?:[a-f0-9]{2}[:\-\s]){5,}[a-f0-9]{2}\b`. -/
def publicPathHexRE : Regex Char :=
  .seq .boundary <|
  .seq (.atLeast 5 (.seq (.times (.one isHexDigit) 2)
    (.one fun c => c = ':' || c = '-' || isBlank c))) <|
  .seq (.times (.one isHexDigit) 2) .boundary

/-- `publicLongHexRE`: `\b(?:0x)?[a-f0-9]{16,}\b`. -/
def publicLongHexRE : Regex Char :=
  .seq .boundary <|
  .seq (.optional (literal "0x")) <|
  .seq (.atLeast 16 (.one isHexDigit)) .boundary

/-- `publicBase64RE`: `\b[A-Za-z0-9+/]{40,}={0,2}\b`. -/
def publicBase64RE : Regex Char :=
  .seq .boundary <|
  .seq (.atLeast 40 (.one isBase64Char)) <|
  .seq (.optional (.seq (.one (· = '=')) (.optional (.one (· = '='))))) .boundary

/-- The expressions that a message must not match. -/
def redactionPatterns : List (Regex Char) :=
  [publicSecretPairRE, publicPathHexRE, publicLongHexRE, publicBase64RE]

/-- `Regexp.ReplaceAllString`. -/
def replaceAllString (r : Regex Char) (value block : String) : String :=
  String.ofList (r.replaceAll isWordChar block.toList value.toList)

/-- The four replacements of `redactPublicMessageText`. -/
def replaceSecrets (value : String) : String :=
  let value := replaceAllString publicSecretPairRE value "[redacted]"
  let value := replaceAllString publicPathHexRE value "[redacted path]"
  let value := replaceAllString publicLongHexRE value "[redacted id]"
  replaceAllString publicBase64RE value "[redacted key]"

/-- The environment with the text filter of the source. -/
@[reducible] def redactingEnv (bounds : CoordinateBounds) (strength : Int → Int → Int) : LiveEnv :=
  { bounds, redact := replaceSecrets, strength }

example : replaceSecrets "path: 1a2b" = "[redacted]" := by decide +kernel

/-! ## What they leave -/

/-- What makes the begin of a secret pair one: a value behind it. -/
def Printed (next : Option Char) : Prop := ∃ c ∈ next, isBlank c = false

/-- The five blanks of `\s`. -/
def blanks : List Char := ['\t', '\n', Char.ofNat 12, '\r', ' ']

theorem mem_blanks {c : Char} (h : isBlank c = true) : c ∈ blanks := by
  have hc : c = Char.ofNat c.toNat := (Char.ofNat_toNat c).symm
  have hn : c.toNat ∈ [9, 10, 12, 13, 32] := by simpa [isBlank] using h
  rw [hc]
  simp only [List.mem_cons, List.not_mem_nil, or_false] at hn
  rcases hn with hn | hn | hn | hn | hn <;> rw [hn] <;> decide

/-- A match that does not begin with a blank is printed there. -/
theorem printed_headOr {r : Regex Char} (hpos : 0 < r.minLength)
    (hfirst : (blanks.all fun c => !r.beginsWith c) = true)
    {prev next : Option Char} {w : List Char} (h : r.Accepts isWordChar prev w next) :
    Printed (headOr w next) := by
  obtain ⟨c, w, rfl⟩ := List.exists_cons_of_ne_nil (h.ne_nil hpos)
  refine ⟨c, rfl, ?_⟩
  by_contra hblank
  have hc := List.all_eq_true.mp hfirst c (mem_blanks (by simpa using hblank))
  exact h.head?_ne (by simpa using hc) rfl

theorem redactionPatterns_begin : ∀ r ∈ redactionPatterns, 0 < r.minLength ∧
    (blanks.all fun c => !r.beginsWith c) = true := by
  decide +kernel

theorem printed_of_mem {r : Regex Char} (hr : r ∈ redactionPatterns) {prev next : Option Char}
    {w : List Char} (h : r.Accepts isWordChar prev w next) : Printed (headOr w next) :=
  printed_headOr (redactionPatterns_begin r hr).1 (redactionPatterns_begin r hr).2 h

/-- A secret pair is its begin with something printed behind it. -/
theorem starts_publicSecretPairRE {prev : Option Char} {l : List Char} :
    publicSecretPairRE.Starts isWordChar (fun _ => True) prev l ↔
      secretPairStart.Starts isWordChar Printed prev l := by
  constructor
  · rintro ⟨w, rest, rfl, h, -⟩
    obtain ⟨u, v, rfl, hstart, hvalue⟩ := Regex.accepts_seq_iff.mp h
    have hprinted := printed_headOr (by decide +kernel) (by decide +kernel) hvalue
    refine ⟨u, v ++ rest, List.append_assoc u v rest, ?_, ?_⟩
    · rwa [head?_append_eq_headOr]
    · rwa [head?_append_eq_headOr]
  · rintro ⟨w, rest, rfl, h, c, hc, hprinted⟩
    obtain ⟨rest, rfl⟩ := List.head?_eq_some_iff.mp hc
    refine ⟨w ++ [c], rest, by simp, .seq h ?_, trivial⟩
    have hone : ∀ {prev}, (Regex.one fun c => !isBlank c).Accepts isWordChar prev [c] rest.head? :=
      fun {_} => .one (by simp [hprinted])
    exact .seq (u := [c]) (.seq (u := [c]) hone .empty) .stop

theorem seals_publicSecretPairRE : Regex.Seals isWordChar publicSecretPairRE ']' := by
  refine ⟨by decide +kernel, trivial, fun {prev w rest} h hboundary => ?_⟩
  -- the value is taken up to a blank or to the end
  obtain ⟨p, -, h⟩ := Regex.head?_ends_seq h
  obtain ⟨p, -, h⟩ := Regex.head?_ends_seq h
  have hblank := Regex.head?_ends_star_one h
  have hbracket : isWordChar ']' = false := by decide
  cases hrest : rest.head? with
  | none => simp [hrest, Boundary, hbracket] at hboundary
  | some c =>
    have hall : (blanks.all fun c => !isWordChar c) = true := by decide +kernel
    have hword : isWordChar c = false := by
      simpa using List.all_eq_true.mp hall c (mem_blanks (by simpa using hblank c hrest))
    simp [hrest, Boundary, hbracket, hword] at hboundary

theorem seals_publicPathHexRE : Regex.Seals isWordChar publicPathHexRE ']' :=
  Regex.seals_of_closes _ (by decide +kernel) trivial trivial

theorem seals_publicLongHexRE : Regex.Seals isWordChar publicLongHexRE ']' :=
  Regex.seals_of_closes _ (by decide +kernel) trivial trivial

theorem seals_publicBase64RE : Regex.Seals isWordChar publicBase64RE ']' :=
  Regex.seals_of_closes _ (by decide +kernel) trivial trivial

/-- No match of any of the expressions lies in a block. -/
theorem avoids_of_mem (inner : List Char)
    (hinner : inner ∈ ["redacted".toList, "redacted path".toList, "redacted id".toList,
      "redacted key".toList]) :
    Regex.Avoids isWordChar secretPairStart '[' inner ']' ∧
      Regex.Avoids isWordChar publicPathHexRE '[' inner ']' ∧
      Regex.Avoids isWordChar publicLongHexRE '[' inner ']' ∧
      Regex.Avoids isWordChar publicBase64RE '[' inner ']' := by
  have hlength : inner.length ≤ 13 := by
    revert inner
    decide
  have hplain : ∀ c ∈ inner, (c = ':' || c = '=') = false := by
    have hall : (inner.all fun c => !(c = ':' || c = '=')) = true := by
      revert inner
      decide
    exact fun c hc => by simpa using List.all_eq_true.mp hall c hc
  have hneeds : secretPairStart.Needs fun c => c = ':' || c = '=' := by
    refine .inr (.inr (.inr (.inr (.inl ?_))))
    exact fun _ hc => hc
  have hlong : ∀ r : Regex Char, 13 < r.minLength → r.lacks '[' = true → r.lacks ']' = true →
      Regex.Avoids isWordChar r '[' inner ']' := fun r hr hfirst hlast =>
    Regex.avoids_of_lacks (Nat.zero_lt_of_lt hr) hfirst hlast fun h =>
      h.not_infix_of_length (Nat.lt_of_le_of_lt hlength hr)
  have hlacks : ∀ r ∈ [secretPairStart, publicPathHexRE, publicLongHexRE, publicBase64RE],
      0 < r.minLength ∧ r.lacks '[' = true ∧ r.lacks ']' = true := by
    decide +kernel
  simp only [List.forall_mem_cons, List.not_mem_nil, false_implies, implies_true, and_true] at hlacks
  obtain ⟨⟨hpos, hopen, hclose⟩, hpath, hlonghex, hbase⟩ := hlacks
  have hminimum : ∀ r ∈ [publicPathHexRE, publicLongHexRE, publicBase64RE], 13 < r.minLength := by
    decide +kernel
  exact ⟨Regex.avoids_of_lacks hpos hopen hclose fun h => h.not_infix_of_needs hneeds hplain,
    hlong _ (hminimum _ (by simp)) hpath.2.1 hpath.2.2,
    hlong _ (hminimum _ (by simp)) hlonghex.2.1 hlonghex.2.2,
    hlong _ (hminimum _ (by simp)) hbase.2.1 hbase.2.2⟩

/-- The text that is left has no match of any of the expressions. -/
theorem not_hasMatch_replaceSecrets (value : String) :
    ∀ r ∈ redactionPatterns, ¬r.HasMatch isWordChar (replaceSecrets value).toList := by
  have hanything : ∀ {r : Regex Char} {prev next w}, r.Accepts isWordChar prev w next →
      (fun _ => True : Option Char → Prop) (headOr w next) := fun _ => trivial
  obtain ⟨hpair₁, -, -, -⟩ := avoids_of_mem "redacted".toList (by simp)
  obtain ⟨hpair₂, hpath₂, -, -⟩ := avoids_of_mem "redacted path".toList (by simp)
  obtain ⟨hpair₃, hpath₃, hlong₃, -⟩ := avoids_of_mem "redacted id".toList (by simp)
  obtain ⟨hpair₄, hpath₄, hlong₄, hbase₄⟩ := avoids_of_mem "redacted key".toList (by simp)
  -- each replacement clears its own expression and keeps the earlier ones cleared
  have hpair := (((Regex.noStart_replaceAll value.toList seals_publicSecretPairRE hpair₁
      (printed_of_mem (by simp [redactionPatterns])) starts_publicSecretPairRE.mpr).replaceAll
      seals_publicPathHexRE hpair₂ (printed_of_mem (by simp [redactionPatterns]))).replaceAll
      seals_publicLongHexRE hpair₃ (printed_of_mem (by simp [redactionPatterns]))).replaceAll
      seals_publicBase64RE hpair₄ (printed_of_mem (by simp [redactionPatterns]))
  have hpath := fun l => ((Regex.noStart_replaceAll l seals_publicPathHexRE hpath₂ hanything
      id).replaceAll seals_publicLongHexRE hpath₃ hanything).replaceAll
      seals_publicBase64RE hpath₄ hanything
  have hlong := fun l => (Regex.noStart_replaceAll l seals_publicLongHexRE hlong₃ hanything
      id).replaceAll seals_publicBase64RE hlong₄ hanything
  have hbase := fun l => Regex.noStart_replaceAll l seals_publicBase64RE hbase₄ hanything id
  have hblocks : ∀ value : String, (replaceSecrets value).toList =
      publicBase64RE.replaceAll isWordChar ('[' :: ("redacted key".toList ++ [']']))
        (publicLongHexRE.replaceAll isWordChar ('[' :: ("redacted id".toList ++ [']']))
          (publicPathHexRE.replaceAll isWordChar ('[' :: ("redacted path".toList ++ [']']))
            (publicSecretPairRE.replaceAll isWordChar ('[' :: ("redacted".toList ++ [']']))
              value.toList))) := fun value => by
    simp only [replaceSecrets, replaceAllString, String.toList_ofList]
    rfl
  intro r hr
  rw [hblocks]
  simp only [redactionPatterns, List.mem_cons, List.not_mem_nil, or_false] at hr
  rcases hr with rfl | rfl | rfl | rfl
  · rintro ⟨a, w, b, hl, h⟩
    exact hpair a (w ++ b) (hl.trans (List.append_assoc a w b))
      (starts_publicSecretPairRE.mp ⟨w, b, rfl, h, trivial⟩)
  · exact Regex.noStart_iff.mp (hpath _)
  · exact Regex.noStart_iff.mp (hlong _)
  · exact Regex.noStart_iff.mp (hbase _)

end CartoLive.Live
