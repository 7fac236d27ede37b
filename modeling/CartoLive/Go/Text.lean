import Mathlib.Algebra.Group.Nat.Defs
import Mathlib.Algebra.Order.Ring.Unbundled.Rat
import Mathlib.Data.List.Dedup
import Mathlib.Data.List.Destutter
import Mathlib.Data.List.DropRight
import Mathlib.Data.List.Sort
import Mathlib.Data.Rat.Defs

/-!
# Go values and strings

The parts of Go's standard library that the backend computes with: IEEE
doubles as they are compared (never added), `strings.TrimSpace`,
`strings.ToUpper`, `strings.Fields`, and the FNV-1a hash behind the public
IDs. Case mapping is the ASCII one: the broker topic grammar
(`^[A-Za-z0-9_-]{1,16}$` for regions, hex digits for keys) lets no other
letter into the labels that are mapped.
-/

namespace CartoLive.Go

/-- A `float64` as far as the backend looks at one: finite values are exact
rationals. -/
inductive F64
  | nan
  | inf (negative : Bool)
  | fin (value : ℚ)
  deriving DecidableEq

namespace F64

def isNaN : F64 → Bool
  | .nan => true
  | _ => false

def isInf : F64 → Bool
  | .inf _ => true
  | _ => false

/-- IEEE `==`. -/
def eqb : F64 → F64 → Bool
  | .nan, _ | _, .nan => false
  | x, y => x = y

/-- IEEE `<=`. -/
def le : F64 → F64 → Bool
  | .nan, _ | _, .nan => false
  | .inf true, _ | _, .inf false => true
  | .inf false, _ | _, .inf true => false
  | .fin x, .fin y => x ≤ y

/-- IEEE `<`. -/
def lt (x y : F64) : Bool := le x y && !eqb x y

end F64

/-! ## Strings -/

/-- `unicode.IsSpace`. -/
def isSpace (c : Char) : Bool :=
  let n := c.toNat
  (9 ≤ n && n ≤ 13) || n = 32 || n = 0x85 || n = 0xA0 || n = 0x1680 || (0x2000 ≤ n && n ≤ 0x200A) ||
    n = 0x2028 || n = 0x2029 || n = 0x202F || n = 0x205F || n = 0x3000

/-- `unicode.IsControl`. -/
def isControl (c : Char) : Bool :=
  c.toNat < 0x20 || (0x7F ≤ c.toNat && c.toNat ≤ 0x9F)

/-- `strings.TrimSpace`. -/
def trimSpace (s : String) : String :=
  String.ofList ((s.toList.dropWhile isSpace).rdropWhile isSpace)

/-- `strings.ToUpper`. -/
def toUpper (s : String) : String := String.ofList (s.toList.map Char.toUpper)

/-- `strings.ToLower`. -/
def toLower (s : String) : String := String.ofList (s.toList.map Char.toLower)

/-- The form in which region labels are compared: `strings.ToUpper(strings.TrimSpace(s))`. -/
def upperTrim (s : String) : String := toUpper (trimSpace s)

/-- The words of a text, with the word being read. -/
def fieldsFrom : List Char → List Char → List (List Char)
  | [], word => if word = [] then [] else [word.reverse]
  | c :: cs, word =>
    if isSpace c then
      if word = [] then fieldsFrom cs [] else word.reverse :: fieldsFrom cs []
    else fieldsFrom cs (c :: word)

/-- `strings.Fields`. -/
def fields (s : String) : List String := (fieldsFrom s.toList []).map String.ofList

/-- The case mapping of ASCII letters, in numbers. -/
theorem toNat_toUpper (c : Char) :
    c.toUpper.toNat = if 97 ≤ c.toNat ∧ c.toNat ≤ 122 then c.toNat - 32 else c.toNat := by
  unfold Char.toUpper
  split
  · rename_i h
    have hlo : 97 ≤ c.toNat := h.1
    have hhi : c.toNat ≤ 122 := h.2
    rw [if_pos ⟨hlo, hhi⟩]
    show (c.val + ('A'.val - 'a'.val)).toNat = c.val.toNat - 32
    have h97 : 97 ≤ c.val.toNat := hlo
    have h122 : c.val.toNat ≤ 122 := hhi
    have hsub : (('A'.val - 'a'.val : UInt32)).toNat = 4294967264 := by decide
    rw [UInt32.toNat_add, hsub]
    omega
  · rename_i h
    have hn : ¬(97 ≤ c.toNat ∧ c.toNat ≤ 122) := fun hc => h ⟨hc.1, hc.2⟩
    rw [if_neg hn]

theorem isSpace_toUpper (c : Char) : isSpace c.toUpper = isSpace c := by
  have h := toNat_toUpper c
  simp only [isSpace, h]
  split <;> grind

theorem toUpper_toUpper (c : Char) : c.toUpper.toUpper = c.toUpper := by
  apply Char.toNat_inj.mp
  rw [toNat_toUpper c.toUpper, if_neg]
  rw [toNat_toUpper]
  split <;> omega

theorem dropWhile_rdropWhile_dropWhile (p : Char → Bool) (l : List Char) :
    ((l.dropWhile p).rdropWhile p).dropWhile p = (l.dropWhile p).rdropWhile p := by
  obtain ⟨tail, htail⟩ := List.rdropWhile_prefix p (l.dropWhile p)
  cases hr : (l.dropWhile p).rdropWhile p with
  | nil => rfl
  | cons c cs =>
    rw [hr, List.cons_append] at htail
    have hc : ¬p c = true := by
      have hne : l.dropWhile p ≠ [] := by simp [← htail]
      have := List.head_dropWhile_not p hne
      simpa [← htail] using this
    exact List.dropWhile_cons_of_neg hc

/-- Trimming is idempotent. -/
theorem trimSpace_trimSpace (s : String) : trimSpace (trimSpace s) = trimSpace s := by
  simp only [trimSpace, String.toList_ofList, dropWhile_rdropWhile_dropWhile,
    List.rdropWhile_idempotent]

/-- Only blanks are trimmed to nothing. -/
theorem trimSpace_eq_empty_iff {s : String} :
    trimSpace s = "" ↔ ∀ c ∈ s.toList, isSpace c = true := by
  have hempty : trimSpace s = "" ↔ (s.toList.dropWhile isSpace).rdropWhile isSpace = [] := by
    unfold trimSpace
    rw [← String.toList_inj, String.toList_ofList, String.toList_empty]
  rw [hempty, List.rdropWhile_eq_nil_iff]
  constructor
  · intro h c hc
    by_contra hprinted
    have hne : s.toList.dropWhile isSpace ≠ [] := fun hnil =>
      hprinted (List.dropWhile_eq_nil_iff.mp hnil c hc)
    have := List.head_dropWhile_not isSpace hne
    rw [h _ (List.head_mem hne)] at this
    cases this
  · exact fun h c hc => h c ((List.dropWhile_sublist isSpace).mem hc)

/-- Trimming leaves a text alone that ends in a printed part. -/
theorem toList_trimSpace_append (s t : String) (hfirst : ∀ c ∈ t.toList.head?, isSpace c = false)
    (hlast : ∀ c ∈ t.toList.getLast?, isSpace c = false) (hne : t.toList ≠ []) :
    (trimSpace (s ++ t)).toList = s.toList.dropWhile isSpace ++ t.toList := by
  have hkeep : t.toList.dropWhile isSpace = t.toList := by
    obtain ⟨c, rest, hcons⟩ := List.exists_cons_of_ne_nil hne
    rw [hcons] at hfirst ⊢
    exact List.dropWhile_cons_of_neg (by simp [hfirst c (by simp)])
  have hleft : (s ++ t).toList.dropWhile isSpace = s.toList.dropWhile isSpace ++ t.toList := by
    rw [String.toList_append, List.dropWhile_append, hkeep]
    split
    · rename_i hempty
      rw [List.isEmpty_iff.mp hempty, List.nil_append]
    · rfl
  obtain ⟨init, last, hconcat⟩ := (List.eq_nil_or_concat' t.toList).resolve_left hne
  rw [trimSpace, String.toList_ofList, hleft, hconcat, ← List.append_assoc,
    List.rdropWhile_concat_neg]
  simpa using hlast last (by simp [hconcat])

/-- A trimmed text has no blank at its start. -/
theorem dropWhile_of_trimSpace {s : String} (h : trimSpace s = s) :
    s.toList.dropWhile isSpace = s.toList := by
  have hlist : (s.toList.dropWhile isSpace).rdropWhile isSpace = s.toList := by
    simpa [trimSpace] using congrArg String.toList h
  rw [← hlist, dropWhile_rdropWhile_dropWhile]

theorem trimSpace_toUpper (s : String) : trimSpace (toUpper s) = toUpper (trimSpace s) := by
  have hp : isSpace ∘ Char.toUpper = isSpace := funext isSpace_toUpper
  simp only [trimSpace, toUpper, String.toList_ofList, List.dropWhile_map, List.rdropWhile, hp,
    ← List.map_reverse]

theorem toUpper_idem (s : String) : toUpper (toUpper s) = toUpper s := by
  simp only [toUpper, String.toList_ofList, List.map_map]
  congr 2
  exact funext toUpper_toUpper

/-- A label in comparison form is its own comparison form. -/
@[simp] theorem upperTrim_upperTrim (s : String) : upperTrim (upperTrim s) = upperTrim s := by
  simp only [upperTrim, trimSpace_toUpper, trimSpace_trimSpace, toUpper_idem]

theorem upperTrim_empty : upperTrim "" = "" := by decide

theorem upperTrim_toUpper (s : String) : upperTrim (toUpper s) = upperTrim s := by
  simp only [upperTrim, trimSpace_toUpper, toUpper_idem]

/-- A label in comparison form has nothing to trim, and no small letters. -/
theorem of_upperTrim_eq {s : String} (h : upperTrim s = s) : trimSpace s = s ∧ toUpper s = s := by
  constructor
  · calc trimSpace s = trimSpace (upperTrim s) := by rw [h]
      _ = upperTrim s := by simp only [upperTrim, trimSpace_toUpper, trimSpace_trimSpace]
      _ = s := h
  · calc toUpper s = toUpper (upperTrim s) := by rw [h]
      _ = upperTrim s := toUpper_idem _
      _ = s := h

/-- `firstNonEmpty`: the first item that is not blank. -/
def firstNonEmpty (items : List String) : String :=
  (items.find? fun item => trimSpace item ≠ "").getD ""

/-! ## Numbers -/

/-- `strings.TrimPrefix`. -/
def trimPrefix (s start : String) : String :=
  if start.toList <+: s.toList then String.ofList (s.toList.drop start.toList.length) else s

/-- The number that decimal digits stand for. -/
def parseDigits (digits : List Char) : Option Int :=
  if digits ≠ [] ∧ digits.all Char.isDigit then some (Nat.ofDigitChars 10 digits 0) else none

/-- `strconv.ParseInt` to the base 10, of numbers that fit. -/
def parseInt (s : String) : Option Int :=
  match s.toList with
  | '-' :: digits => (parseDigits digits).map fun n => -n
  | '+' :: digits => parseDigits digits
  | digits => parseDigits digits

theorem toList_repr (n : Nat) : (Nat.repr n).toList = Nat.toDigits 10 n := by
  simp [Nat.repr]

theorem toList_toString_negSucc (n : Nat) :
    (toString (Int.negSucc n)).toList = '-' :: Nat.toDigits 10 (n + 1) := by
  show ("-" ++ Nat.repr (n + 1)).toList = _
  rw [String.toList_append, toList_repr]
  rfl

theorem parseDigits_toDigits (n : Nat) : parseDigits (Nat.toDigits 10 n) = some (n : Int) := by
  have hdigits : (Nat.toDigits 10 n).all Char.isDigit = true :=
    List.all_eq_true.mpr fun c hc => Nat.isDigit_of_mem_toDigits (by omega) (by omega) hc
  unfold parseDigits
  rw [if_pos ⟨Nat.toDigits_ne_nil, hdigits⟩, Nat.ofDigitChars_ten_toDigits]

/-- A printed number reads back. -/
theorem parseInt_toString (n : Int) : parseInt (toString n) = some n := by
  unfold parseInt
  cases n with
  | ofNat n =>
    have hlist : (toString (Int.ofNat n)).toList = Nat.toDigits 10 n := toList_repr n
    rw [hlist]
    have hdigit : ∀ c ∈ Nat.toDigits 10 n, c.isDigit = true := fun c hc =>
      Nat.isDigit_of_mem_toDigits (by omega) (by omega) hc
    split
    · rename_i hminus
      exact absurd (hdigit '-' (by rw [hminus]; simp)) (by decide)
    · rename_i hplus
      exact absurd (hdigit '+' (by rw [hplus]; simp)) (by decide)
    · exact parseDigits_toDigits n
  | negSucc n =>
    rw [toList_toString_negSucc]
    show (parseDigits (Nat.toDigits 10 (n + 1))).map _ = _
    rw [parseDigits_toDigits]
    rfl

theorem toString_inj {m n : Int} (h : toString m = toString n) : m = n := by
  have hnumbers := congrArg parseInt h
  rw [parseInt_toString, parseInt_toString] at hnumbers
  exact Option.some.inj hnumbers

theorem toList_toString_ne_nil (n : Int) : (toString n).toList ≠ [] := by
  cases n with
  | ofNat n =>
    show (Nat.repr n).toList ≠ []
    rw [toList_repr]
    exact Nat.toDigits_ne_nil
  | negSucc n =>
    rw [toList_toString_negSucc]
    exact List.cons_ne_nil _ _

/-- The characters of a printed number. -/
theorem mem_toString (n : Int) : ∀ c ∈ (toString n).toList, c.isDigit = true ∨ c = '-' := by
  have hdigits : ∀ m, ∀ c ∈ Nat.toDigits 10 m, c.isDigit = true := fun m c hc =>
    Nat.isDigit_of_mem_toDigits (by omega) (by omega) hc
  intro c hc
  cases n with
  | ofNat n => exact .inl (hdigits n c (toList_repr n ▸ hc))
  | negSucc n =>
    rw [toList_toString_negSucc] at hc
    rcases List.mem_cons.mp hc with rfl | hc
    · exact .inr rfl
    · exact .inl (hdigits _ c hc)

/-- A printed number has no blanks. -/
theorem isSpace_of_mem_toString (n : Int) : ∀ c ∈ (toString n).toList, isSpace c = false := by
  intro c hc
  rcases mem_toString n c hc with hdigit | rfl
  · simp only [Char.isDigit, Bool.and_eq_true, decide_eq_true_eq] at hdigit
    have hlo : 48 ≤ c.toNat := hdigit.1
    have hhi : c.toNat ≤ 57 := hdigit.2
    simp only [isSpace]
    grind
  · decide

/-! ## Hashing and printing -/

/-- `fnv.New32a` over the UTF-8 bytes of a text. -/
def fnv32a (s : String) : Nat :=
  (s.toList.flatMap String.utf8EncodeChar).foldl
    (fun h b => (h ^^^ b.toNat) * 16777619 % 2 ^ 32) 2166136261

/-- `%08x`. -/
def hex8 (n : Nat) : String :=
  let digits := Nat.toDigits 16 n
  String.ofList (List.replicate (8 - digits.length) '0' ++ digits)

/-! ## Sets of strings -/

/-- `mapKeys` of the set of the items: each item that is not empty once, in
order. -/
def uniqueSorted (items : List String) : List String :=
  (items.dedup.filter (· ≠ "")).insertionSort (· ≤ ·)

theorem mem_uniqueSorted {items : List String} {item : String} :
    item ∈ uniqueSorted items ↔ item ≠ "" ∧ item ∈ items := by
  simp [uniqueSorted, List.mem_insertionSort, and_comm]

/-- `uniqueConsecutive`: drops empty items and immediate repeats. -/
def uniqueConsecutive (items : List String) : List String :=
  (items.filter (· ≠ "")).destutter (· ≠ ·)

end CartoLive.Go
