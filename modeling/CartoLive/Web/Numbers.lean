import CartoLive.Lib.Decimals
import CartoLive.Web.Sanitize

/-!
# Numbers and their texts

`Number` of a text and `toFixed`, as the language defines them for numbers that are exact.
-/

namespace CartoLive.Web

open CartoLive.Lib.Decimals

/-! ## `Number` -/

/-- The value of a digit up to `z`. -/
def radixDigit (c : Char) : Nat :=
  if c.isDigit then c.toNat - 48 else if c.isLower then c.toNat - 87 else c.toNat - 55

/-- The digits of a `NonDecimalIntegerLiteral` and their base. -/
def radixPrefix : List Char → Option (Nat × List Char)
  | '0' :: c :: digits =>
    if c = 'x' ∨ c = 'X' then some (16, digits)
    else if c = 'o' ∨ c = 'O' then some (8, digits)
    else if c = 'b' ∨ c = 'B' then some (2, digits)
    else none
  | _ => none

def radixNumber (base : Nat) (digits : List Char) : Option ℚ :=
  if digits ≠ [] ∧ digits.all (fun c => c.isAlphanum && radixDigit c < base) then
    some ((digits.foldl (fun n c => base * n + radixDigit c) 0 : Nat) : ℚ)
  else none

/-- An `ExponentPart`, or nothing. -/
def exponentPart : List Char → Option Int
  | [] => some 0
  | c :: rest =>
    if c = 'e' ∨ c = 'E' then
      match rest with
      | '-' :: digits => (Go.parseDigits digits).map fun n => -n
      | '+' :: digits => Go.parseDigits digits
      | digits => Go.parseDigits digits
    else none

/-- A `StrUnsignedDecimalLiteral` other than `Infinity`. -/
def unsignedNumber (text : List Char) : Option ℚ :=
  let whole := text.takeWhile Char.isDigit
  match text.dropWhile Char.isDigit with
  | '.' :: rest =>
    let digits := rest.takeWhile Char.isDigit
    if whole = [] ∧ digits = [] then none
    else
      (exponentPart (rest.dropWhile Char.isDigit)).map fun e =>
        fraction (whole ++ digits) digits.length * 10 ^ e
  | rest =>
    if whole = [] then none else (exponentPart rest).map fun e => fraction whole 0 * 10 ^ e

/-- `Number` of a text, where it is finite. -/
def number (text : String) : Option ℚ :=
  let text := (trim text).toList
  if text = [] then some 0
  else
    match radixPrefix text with
    | some (base, digits) => radixNumber base digits
    | none =>
      match text with
      | '+' :: text => unsignedNumber text
      | '-' :: text => (unsignedNumber text).map fun x => -x
      | text => unsignedNumber text

/-! ## `toFixed` -/

/-- `toFixed`, of a number below `10 ^ 21`. -/
def toFixed (value : ℚ) (digits : Nat) : String :=
  let m := (Nat.toDigits 10 (units digits value)).leftpad (digits + 1) '0'
  let k := m.length
  let text := if digits = 0 then m else m.take (k - digits) ++ '.' :: m.drop (k - digits)
  String.ofList (if value < 0 then '-' :: text else text)

/-- Whether `\.?0+$` matches at a position. -/
def matchesZeros (text : List Char) : Bool :=
  let zeros := if text.head? = some '.' then text.tail else text
  zeros ≠ [] && zeros.all (· = '0')

def cutZeros : List Char → List Char
  | [] => []
  | c :: rest => if matchesZeros (c :: rest) then [] else c :: cutZeros rest

/-- `.replace(/\.?0+$/, '')`. -/
def dropZeros (text : String) : String := String.ofList (cutZeros text.toList)

/-! ## The number of a fixed text -/

theorem cutZeros_append {p r : List Char}
    (h : ∀ q, q ≠ [] → q <:+ p → matchesZeros (q ++ r) = false) :
    cutZeros (p ++ r) = p ++ cutZeros r := by
  induction p with
  | nil => rfl
  | cons c p ih =>
    have hc : matchesZeros (c :: (p ++ r)) = false := h (c :: p) (by simp) List.suffix_rfl
    rw [List.cons_append, cutZeros, if_neg (by rw [hc]; exact Bool.false_ne_true), List.cons_append,
      ih fun q hq hsuffix => h q hq (hsuffix.trans (List.suffix_cons c p))]

/-- Before the point nothing is cut. -/
theorem cutZeros_append_point {p b : List Char} (h : '.' ∉ p) :
    cutZeros (p ++ '.' :: b) = p ++ cutZeros ('.' :: b) := by
  refine cutZeros_append fun q hq hsuffix => ?_
  have hpoint : '.' ∉ q := fun hmem => h (hsuffix.subset hmem)
  cases q with
  | nil => exact absurd rfl hq
  | cons c q =>
    have hc : ¬ (c :: q ++ '.' :: b).head? = some '.' := by
      intro hhead
      exact hpoint (Option.some.inj hhead ▸ List.mem_cons_self)
    have hzeros : (c :: q ++ '.' :: b).all (· = '0') = false :=
      List.all_eq_false.mpr ⟨'.', by simp, by decide⟩
    rw [matchesZeros, if_neg hc, hzeros, Bool.and_false]

/-- Of digits, the zeros at the end are cut. -/
theorem cutZeros_digits {b : List Char} (h : '.' ∉ b) :
    ∃ zeros, b = cutZeros b ++ List.replicate zeros '0' := by
  induction b with
  | nil => exact ⟨0, rfl⟩
  | cons c b ih =>
    rw [cutZeros]
    split
    · rename_i hzeros
      have hc : ¬ (c :: b).head? = some '.' := by
        intro hhead
        exact h (Option.some.inj hhead ▸ List.mem_cons_self)
      rw [matchesZeros, if_neg hc, Bool.and_eq_true, List.all_eq_true] at hzeros
      refine ⟨(c :: b).length, List.eq_replicate_iff.mpr ⟨rfl, fun d hd => ?_⟩⟩
      exact of_decide_eq_true (hzeros.2 d hd)
    · obtain ⟨zeros, hb⟩ := ih fun hmem => h (List.mem_cons_of_mem c hmem)
      exact ⟨zeros, congrArg (c :: ·) hb⟩

theorem matchesZeros_point (b : List Char) :
    matchesZeros ('.' :: b) = (b ≠ [] && b.all (· = '0')) := rfl

/-- Behind the point, the zeros at the end are cut, and the point with the last digit. -/
theorem cutZeros_point {b : List Char} (h : '.' ∉ b) (hb : b ≠ []) :
    ∃ kept zeros, b = kept ++ List.replicate zeros '0' ∧
      cutZeros ('.' :: b) = if kept = [] then [] else '.' :: kept := by
  rw [cutZeros]
  split
  · rename_i hzeros
    rw [matchesZeros_point, Bool.and_eq_true, List.all_eq_true] at hzeros
    refine ⟨[], b.length, List.eq_replicate_iff.mpr ⟨rfl, fun d hd => ?_⟩, rfl⟩
    exact of_decide_eq_true (hzeros.2 d hd)
  · rename_i hzeros
    obtain ⟨zeros, heq⟩ := cutZeros_digits h
    refine ⟨cutZeros b, zeros, heq, (if_neg fun hnil => hzeros ?_).symm⟩
    rw [hnil, List.nil_append] at heq
    have hall : ∀ d ∈ b, decide (d = '0') = true := by
      intro d hd
      rw [heq] at hd
      exact decide_eq_true (List.eq_of_mem_replicate hd)
    rw [matchesZeros_point, Bool.and_eq_true, List.all_eq_true]
    exact ⟨decide_eq_true hb, hall⟩

/-- The characters of a fixed text. -/
def IsNumeral (c : Char) : Prop := c.isDigit = true ∨ c = '.' ∨ c = '-'

theorem IsNumeral.not_space {c : Char} (h : IsNumeral c) : isJsSpace c = false := by
  rcases h with h | rfl | rfl
  · have hrange : 48 ≤ c.toNat ∧ c.toNat ≤ 57 := by
      simpa [Char.isDigit, Char.le_def, UInt32.le_iff_toNat_le] using h
    rw [Bool.eq_false_iff]
    intro hspace
    simp only [isJsSpace, Go.isSpace, Bool.or_eq_true, Bool.and_eq_true, decide_eq_true_eq]
      at hspace
    omega
  · decide
  · decide

theorem takeWhile_digits {a r : List Char} (ha : ∀ c ∈ a, c.isDigit = true)
    (hr : ∀ c ∈ r.head?, c.isDigit = false) :
    (a ++ r).takeWhile Char.isDigit = a ∧ (a ++ r).dropWhile Char.isDigit = r := by
  have hrest : r.takeWhile Char.isDigit = [] ∧ r.dropWhile Char.isDigit = r := by
    cases r with
    | nil => exact ⟨rfl, rfl⟩
    | cons c r =>
      have hc : c.isDigit = false := hr c rfl
      simp [hc]
  constructor
  · rw [List.takeWhile_append_of_pos ha, hrest.1, List.append_nil]
  · rw [List.dropWhile_append_of_pos ha, hrest.2]

/-- A decimal literal without an exponent. -/
theorem unsignedNumber_digits {a b : List Char} (ha : a ≠ []) (hdigits : ∀ c ∈ a, c.isDigit = true)
    (hb : ∀ c ∈ b, c.isDigit = true) :
    unsignedNumber (a ++ if b = [] then [] else '.' :: b) = some (fraction (a ++ b) b.length) := by
  unfold unsignedNumber
  by_cases hnil : b = []
  · obtain ⟨htake, hdrop⟩ := takeWhile_digits (r := []) hdigits nofun
    rw [if_pos hnil, hnil, htake, hdrop]
    simp [ha, exponentPart]
  · obtain ⟨htake, hdrop⟩ := takeWhile_digits (r := '.' :: b) hdigits fun c hc => by
      obtain rfl := Option.some.inj hc
      decide
    obtain ⟨htake', hdrop'⟩ := takeWhile_digits (r := []) hb nofun
    rw [List.append_nil] at htake' hdrop'
    rw [if_neg hnil, htake, hdrop]
    simp [ha, htake', hdrop', exponentPart]

theorem radixPrefix_of_numerals {text : List Char} (h : ∀ c ∈ text, IsNumeral c) :
    radixPrefix text = none := by
  unfold radixPrefix
  split
  · rename_i c digits
    have hc : IsNumeral c := h c (by simp)
    rcases hc with hc | rfl | rfl
    · have hne : ∀ d : Char, d.isDigit = false → c ≠ d := by
        rintro d hd rfl
        exact absurd (hc.symm.trans hd) nofun
      rw [if_neg, if_neg, if_neg]
      · exact not_or.mpr ⟨hne 'b' (by decide), hne 'B' (by decide)⟩
      · exact not_or.mpr ⟨hne 'o' (by decide), hne 'O' (by decide)⟩
      · exact not_or.mpr ⟨hne 'x' (by decide), hne 'X' (by decide)⟩
    · rfl
    · rfl
  · rfl

/-- Digits, with a sign and a point that may be missing, stand for their fraction. -/
theorem number_numeral {a b : List Char} (ha : a ≠ []) (hdigits : ∀ c ∈ a, c.isDigit = true)
    (hb : ∀ c ∈ b, c.isDigit = true) (negative : Bool) :
    number (String.ofList ((if negative then ['-'] else []) ++
        (a ++ if b = [] then [] else '.' :: b))) =
      some ((if negative then -1 else 1) * fraction (a ++ b) b.length) := by
  have hunsigned := unsignedNumber_digits ha hdigits hb
  have hbody : ∀ c ∈ a ++ (if b = [] then [] else '.' :: b), IsNumeral c := by
    intro c hc
    rcases List.mem_append.mp hc with hc | hc
    · exact Or.inl (hdigits c hc)
    · split at hc
      · cases hc
      · rcases List.mem_cons.mp hc with rfl | hc
        · exact Or.inr (Or.inl rfl)
        · exact Or.inl (hb c hc)
  generalize htext : (a ++ if b = [] then [] else '.' :: b) = body at hunsigned hbody ⊢
  have hall : ∀ c ∈ (if negative then ['-'] else []) ++ body, IsNumeral c := by
    intro c hc
    rcases List.mem_append.mp hc with hc | hc
    · split at hc
      · exact Or.inr (Or.inr (List.mem_singleton.mp hc))
      · cases hc
    · exact hbody c hc
  have hne : body ≠ [] := by
    rw [← htext]
    exact List.append_ne_nil_of_left_ne_nil ha _
  have hhead : ∀ c rest, body = c :: rest → c.isDigit = true := by
    intro c rest hcons
    cases a with
    | nil => exact absurd rfl ha
    | cons d a =>
      obtain rfl : d = c := (List.cons.inj (htext.trans hcons)).1
      exact hdigits d List.mem_cons_self
  unfold number
  rw [trim_eq_self fun c hc => (hall c (by simpa using hc)).not_space, String.toList_ofList]
  dsimp only
  rw [if_neg (List.append_ne_nil_of_right_ne_nil _ hne), radixPrefix_of_numerals hall]
  cases negative with
  | true =>
    show (unsignedNumber body).map (fun x => -x) = _
    rw [hunsigned]
    simp
  | false =>
    dsimp only
    rw [if_neg Bool.false_ne_true, List.nil_append, if_neg Bool.false_ne_true, one_mul]
    split
    · exact absurd (hhead '+' _ rfl) (by decide)
    · exact absurd (hhead '-' _ rfl) (by decide)
    · exact hunsigned

theorem isDigit_of_mem_leftpad {n m : Nat} {c : Char}
    (h : c ∈ (Nat.toDigits 10 n).leftpad m '0') : c.isDigit = true := by
  rw [List.leftpad, List.mem_append] at h
  rcases h with hc | hc
  · rw [List.eq_of_mem_replicate hc]
    decide
  · exact Nat.isDigit_of_mem_toDigits (by omega) (by omega) hc

theorem isNumeral_of_mem_toFixed {value : ℚ} {digits : Nat} {c : Char}
    (h : c ∈ (toFixed value digits).toList) : IsNumeral c := by
  unfold toFixed at h
  dsimp only at h
  generalize hm : (Nat.toDigits 10 (units digits value)).leftpad (digits + 1) '0' = m at h
  have hdigit : ∀ c ∈ m, IsNumeral c := fun c hc => .inl (isDigit_of_mem_leftpad (hm ▸ hc))
  have htext : c ∈ (if digits = 0 then m else
      m.take (m.length - digits) ++ '.' :: m.drop (m.length - digits)) → IsNumeral c := by
    split
    · exact hdigit c
    · intro hc
      rcases List.mem_append.mp hc with hc | hc
      · exact hdigit c (List.mem_of_mem_take hc)
      · rcases List.mem_cons.mp hc with rfl | hc
        · exact .inr (.inl rfl)
        · exact hdigit c (List.mem_of_mem_drop hc)
  rw [String.toList_ofList] at h
  by_cases hneg : value < 0
  · rw [if_pos hneg] at h
    rcases List.mem_cons.mp h with rfl | h
    · exact .inr (.inr rfl)
    · exact htext h
  · rw [if_neg hneg] at h
    exact htext h

/-- The shortened fixed text of a number stands for the rounded number. -/
theorem number_dropZeros_toFixed (value : ℚ) {digits : Nat} (hpos : 0 < digits) :
    number (dropZeros (toFixed value digits)) = some (roundTo digits value) := by
  unfold toFixed dropZeros
  dsimp only
  generalize hm : (Nat.toDigits 10 (units digits value)).leftpad (digits + 1) '0' = m
  have hlength : digits + 1 ≤ m.length := by
    rw [← hm, List.leftpad, List.length_append, List.length_replicate]
    omega
  have hdigit : ∀ c ∈ m, c.isDigit = true := fun c hc => isDigit_of_mem_leftpad (hm ▸ hc)
  have hpoint : ∀ l, l ⊆ m → '.' ∉ l := by
    intro l hl hmem
    exact absurd (hdigit '.' (hl hmem)) (by decide)
  obtain ⟨a, b, ha, hb, hab⟩ : ∃ a b, m.take (m.length - digits) = a ∧
      m.drop (m.length - digits) = b ∧ m = a ++ b :=
    ⟨_, _, rfl, rfl, (List.take_append_drop _ m).symm⟩
  have hlena : a ≠ [] := by
    rintro rfl
    have := congrArg List.length ha
    rw [List.length_take, List.length_nil] at this
    omega
  have hlenb : b.length = digits := by
    rw [← hb, List.length_drop]
    omega
  obtain ⟨kept, zeros, hkept, hcut⟩ := cutZeros_point (b := b)
    (hpoint b (hab ▸ List.subset_append_right a b)) (List.ne_nil_of_length_pos (by omega))
  have hsplit : m = (a ++ kept) ++ List.replicate zeros '0' := by
    rw [hab, hkept, List.append_assoc]
  have hdigits : digits = kept.length + zeros := by
    rw [← hlenb, hkept, List.length_append, List.length_replicate]
  have hvalue : fraction (a ++ kept) kept.length = units digits value / 10 ^ digits := by
    rw [← fraction_append_replicate, ← hsplit, ← hdigits, fraction, ← hm, ofDigitChars_leftpad]
  have htext : cutZeros (if value < 0 then '-' :: (a ++ '.' :: b) else a ++ '.' :: b) =
      (if decide (value < 0) then ['-'] else []) ++
        (a ++ if kept = [] then [] else '.' :: kept) := by
    have hnot : '.' ∉ a := hpoint a (hab ▸ List.subset_append_left a b)
    by_cases hneg : value < 0
    · rw [if_pos hneg, if_pos (decide_eq_true hneg), ← List.cons_append,
        cutZeros_append_point (List.not_mem_cons_of_ne_of_not_mem (by decide) hnot), hcut]
      rfl
    · rw [if_neg hneg, if_neg (by simpa using hneg), cutZeros_append_point hnot, hcut]
      rfl
  rw [if_neg (Nat.pos_iff_ne_zero.mp hpos), ha, hb, String.toList_ofList, htext,
    number_numeral hlena
      (fun c hc => hdigit c (hab ▸ List.mem_append_left b hc))
      (fun c hc => hdigit c (hsplit ▸ List.mem_append_left _ (List.mem_append_right a hc))),
    hvalue, roundTo]
  simp

end CartoLive.Web
