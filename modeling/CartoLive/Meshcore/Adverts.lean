import CartoLive.Go.Numbers
import CartoLive.Lib.Reads
import CartoLive.Meshcore.Decode
import Mathlib.Data.Nat.Bitwise

/-!
# Advert payloads

`ParseAdvertPayload` of `decode.go`: a key, a time and a signature, then flags
and the parts that they announce. Every read is checked against the bounds of
what is read from, and has no result outside of them.
-/

namespace CartoLive.Meshcore

open CartoLive.Go CartoLive.Lib

/-! ## Values in bytes -/

/-- `binary.LittleEndian.Uint32`. -/
def littleEndianUint32 (b : List UInt8) : Option UInt32 :=
  b[0]?.bind fun b₀ => b[1]?.bind fun b₁ => b[2]?.bind fun b₂ => b[3]?.map fun b₃ =>
    UInt32.ofNat (b₀.toNat + 2 ^ 8 * b₁.toNat + 2 ^ 16 * b₂.toNat + 2 ^ 24 * b₃.toNat)

/-- The four bytes of a value, the low one first. -/
def littleEndianBytes (x : UInt32) : List UInt8 :=
  [UInt8.ofNat x.toNat, UInt8.ofNat (x.toNat / 2 ^ 8), UInt8.ofNat (x.toNat / 2 ^ 16),
    UInt8.ofNat (x.toNat / 2 ^ 24)]

@[simp] theorem length_littleEndianBytes (x : UInt32) : (littleEndianBytes x).length = 4 := rfl

theorem littleEndianUint32_bytes (x : UInt32) :
    littleEndianUint32 (littleEndianBytes x) = some x := by
  have hlt := x.toNat_lt
  refine congrArg some (UInt32.toNat_inj.mp ?_)
  simp only [UInt32.toNat_ofNat', UInt8.toNat_ofNat']
  omega

theorem littleEndianUint32_isSome {b : List UInt8} (h : 4 ≤ b.length) :
    ∃ x, littleEndianUint32 b = some x := by
  unfold littleEndianUint32
  rw [List.getElem?_eq_getElem (i := 0) (by omega), List.getElem?_eq_getElem (i := 1) (by omega),
    List.getElem?_eq_getElem (i := 2) (by omega), List.getElem?_eq_getElem (i := 3) (by omega)]
  exact ⟨_, rfl⟩

/-- `trimNUL`. -/
def trimNUL (bytes : List UInt8) : List UInt8 := bytes.rdropWhile fun b => b = 0

/-- The bytes of a text in UTF-8. -/
def encodeUTF8 (s : String) : List UInt8 := s.toList.flatMap String.utf8EncodeChar

/-- `string(bytes)` where `utf8.Valid(bytes)`. -/
def decodeUTF8 (bytes : List UInt8) : Option String := String.fromUTF8? bytes.toByteArray

theorem decodeUTF8_encodeUTF8 (s : String) : decodeUTF8 (encodeUTF8 s) = some s := by
  have hbytes : (encodeUTF8 s).toByteArray = s.toByteArray := String.utf8Encode_toList
  unfold decodeUTF8
  rw [hbytes, String.fromUTF8?, dif_pos s.isValidUTF8]
  rfl

/-- A byte of ASCII is a whole character. -/
theorem utf8EncodeChar_of_mem {c : Char} {b : UInt8} (h : b ∈ String.utf8EncodeChar c)
    (hb : b.toNat < 128) : String.utf8EncodeChar c = [b] ∧ c.toNat = b.toNat := by
  have hnum : ∀ n, b = UInt8.ofNat n → n % 256 = b.toNat := fun n hn => by
    rw [hn, UInt8.toNat_ofNat']
  unfold String.utf8EncodeChar at h ⊢
  dsimp only at h ⊢
  split at h
  · rename_i hone
    rw [if_pos hone]
    obtain rfl := List.mem_singleton.mp h
    refine ⟨rfl, ?_⟩
    have := hnum _ rfl
    show c.val.toNat = _
    omega
  split at h
  · simp only [List.mem_cons, List.not_mem_nil, or_false] at h
    rcases h with h | h
    all_goals
      have := hnum _ h
      omega
  split at h
  · simp only [List.mem_cons, List.not_mem_nil, or_false] at h
    rcases h with h | h | h
    all_goals
      have := hnum _ h
      omega
  · simp only [List.mem_cons, List.not_mem_nil, or_false] at h
    rcases h with h | h | h | h
    all_goals
      have := hnum _ h
      omega

/-- The bytes of a character other than NUL are not NUL. -/
theorem ne_zero_of_mem_utf8EncodeChar {c : Char} (hc : c.toNat ≠ 0) {b : UInt8}
    (h : b ∈ String.utf8EncodeChar c) : b ≠ 0 := by
  rintro rfl
  exact hc (utf8EncodeChar_of_mem h (by decide)).2

/-- Before and behind a byte of ASCII, a text has whole characters. -/
theorem exists_of_encodeUTF8_eq_append {l : List Char} {front back : List UInt8} {b : UInt8}
    (hb : b.toNat < 128) (h : l.flatMap String.utf8EncodeChar = front ++ b :: back) :
    ∃ u c v, l = u ++ c :: v ∧ c.toNat = b.toNat ∧ front = u.flatMap String.utf8EncodeChar ∧
      back = v.flatMap String.utf8EncodeChar := by
  induction l generalizing front with
  | nil => simp at h
  | cons c l ih =>
    rw [List.flatMap_cons] at h
    rcases List.append_eq_append_iff.mp h with ⟨more, rfl, hmore⟩ | ⟨more, hc, hmore⟩
    · obtain ⟨u, d, v, rfl, hd, rfl, rfl⟩ := ih hmore
      exact ⟨c :: u, d, v, rfl, hd, List.flatMap_cons.symm, rfl⟩
    · cases more with
      | nil =>
        rw [List.nil_append] at hmore
        rw [List.append_nil] at hc
        obtain ⟨u, d, v, rfl, hd, hu, rfl⟩ := ih (show _ = [] ++ b :: back from hmore.symm)
        refine ⟨c :: u, d, v, rfl, hd, ?_, rfl⟩
        rw [List.flatMap_cons, ← hu, List.append_nil, hc]
      | cons first more =>
        obtain ⟨rfl, rfl⟩ := List.cons.inj hmore
        have hmem : b ∈ String.utf8EncodeChar c := by
          rw [hc]
          exact List.mem_append_right _ List.mem_cons_self
        obtain ⟨hone, hnat⟩ := utf8EncodeChar_of_mem hmem hb
        rw [hone] at hc
        obtain ⟨rfl, hmore⟩ : front = [] ∧ more = [] := by
          cases front with
          | nil => exact ⟨rfl, (List.cons.inj hc).2.symm⟩
          | cons x front => simp at hc
        exact ⟨[], c, l, rfl, hnat, rfl, by rw [hmore]; rfl⟩

/-! ## The payload -/

/-- `NodeRoleFromType`. -/
def nodeRoleFromType (nodeType : Int) : String :=
  if nodeType = 1 then "companion"
  else if nodeType = 2 then "repeater"
  else if nodeType = 3 then "room_server"
  else if nodeType = 4 then "sensor"
  else "unknown"

/-- What `ParseAdvertPayload` returns. -/
structure ParsedAdvert where
  advert : Advert
  ok : Bool
  err : Option String
  deriving DecidableEq

/-- `flags&mask != 0`. -/
def hasFlag (flags mask : UInt8) : Bool := flags &&& mask ≠ 0

/-- `float64(raw) / 1_000_000`. -/
def degrees (raw : Int32) : F64 := .fin (roundFloat64 (raw.toInt / 1000000))

/-- A location that is in range. -/
def Advert.withLocation (advert : Advert) (lat lng : F64) : Advert :=
  if (F64.fin (-90)).le lat && lat.le (.fin 90) && (F64.fin (-180)).le lng && lng.le (.fin 180) then
    { advert with latitude := some lat, longitude := some lng, locationSource := "advert" }
  else advert

/-- The part that the location flag announces: the advert and the offset behind it, or an error. -/
def readLocation (advert : Advert) (appdata : List UInt8) (offset : Nat) :
    Option (Except String (Advert × Nat)) :=
  if appdata.length < offset + 8 then
    some (.error "advert location flag set but payload too short")
  else
    ((slice appdata offset (offset + 4)).bind littleEndianUint32).bind fun latRaw =>
      let offset := offset + 4
      ((slice appdata offset (offset + 4)).bind littleEndianUint32).map fun lngRaw =>
        .ok (advert.withLocation (degrees latRaw.toInt32) (degrees lngRaw.toInt32), offset + 4)

/-- The part that the name flag announces. -/
def readName (advert : Advert) (appdata : List UInt8) (offset : Nat) : Option Advert :=
  (slice appdata offset appdata.length).map fun rest =>
    match decodeUTF8 (trimNUL rest) with
    | some name => { advert with name := trimSpace name }
    | none => advert

/-- The parts behind the location. -/
def readFeatures (advert : Advert) (flags : UInt8) (appdata : List UInt8) (offset : Nat) :
    Option ParsedAdvert :=
  let offset := if hasFlag flags 0x20 then offset + 2 else offset
  let offset := if hasFlag flags 0x40 then offset + 2 else offset
  if appdata.length < offset then
    some { advert, ok := true, err := some "advert appdata flags exceed payload" }
  else if hasFlag flags 0x80 ∧ offset < appdata.length then
    (readName advert appdata offset).map fun advert => { advert, ok := true, err := none }
  else some { advert, ok := true, err := none }

/-- The parts behind the flags. -/
def readAppdata (advert : Advert) (flags : UInt8) (appdata : List UInt8) : Option ParsedAdvert :=
  (if hasFlag flags 0x10 then readLocation advert appdata 1 else some (.ok (advert, 1))).bind
    fun located =>
      match located with
      | .error message => some { advert, ok := true, err := some message }
      | .ok (advert, offset) => readFeatures advert flags appdata offset

/-- `ParseAdvertPayload`. -/
def parseAdvertPayload (payload : List UInt8) : Option ParsedAdvert :=
  let zero : Advert :=
    { publicKey := "", nodeType := 0, role := "", latitude := none, longitude := none, name := ""
      locationSource := "" }
  if payload.length < 32 + 4 + 64 then some { advert := zero, ok := false, err := none }
  else
    (slice payload 0 32).bind fun key =>
      ((slice payload 32 36).bind littleEndianUint32).bind fun timestamp =>
        (slice payload 100 payload.length).bind fun appdata =>
          let advert : Advert :=
            { zero with publicKey := upperHex key, timestamp, role := "unknown" }
          if appdata.length = 0 then some { advert, ok := true, err := none }
          else
            appdata[0]?.bind fun flags =>
              let nodeType := ((flags &&& 0x0F).toNat : Int)
              readAppdata { advert with flags, nodeType, role := nodeRoleFromType nodeType } flags
                appdata

/-! ## Flags -/

theorem hasFlag_eq (flags mask : UInt8) (k : Nat) (hmask : mask.toNat = 2 ^ k) :
    hasFlag flags mask = decide (flags.toNat / 2 ^ k % 2 = 1) := by
  unfold hasFlag
  refine decide_eq_decide.mpr ?_
  rw [Ne, ← UInt8.toNat_inj, UInt8.toNat_and, hmask, Nat.and_two_pow,
    Nat.testBit_eq_decide_div_mod_eq]
  by_cases h : flags.toNat / 2 ^ k % 2 = 1
  · simp [h]
  · simp [h]

/-- The flags byte of a node type and the parts that are there. -/
def flagsByte (nodeType : Fin 16) (location feature1 feature2 name : Bool) : UInt8 :=
  UInt8.ofNat (nodeType + 16 * location.toNat + 32 * feature1.toNat + 64 * feature2.toNat +
    128 * name.toNat)

theorem toNat_flagsByte (nodeType : Fin 16) (location feature1 feature2 name : Bool) :
    (flagsByte nodeType location feature1 feature2 name).toNat =
      nodeType + 16 * location.toNat + 32 * feature1.toNat + 64 * feature2.toNat +
        128 * name.toNat := by
  have h := nodeType.isLt
  have h₁ := location.toNat_le
  have h₂ := feature1.toNat_le
  have h₃ := feature2.toNat_le
  have h₄ := name.toNat_le
  rw [flagsByte, UInt8.toNat_ofNat']
  omega

section Flags

variable (nodeType : Fin 16) (location feature1 feature2 name : Bool)

/-- The flags say which parts are there, and the type of the node. -/
theorem hasFlag_flagsByte :
    hasFlag (flagsByte nodeType location feature1 feature2 name) 0x10 = location ∧
      hasFlag (flagsByte nodeType location feature1 feature2 name) 0x20 = feature1 ∧
      hasFlag (flagsByte nodeType location feature1 feature2 name) 0x40 = feature2 ∧
      hasFlag (flagsByte nodeType location feature1 feature2 name) 0x80 = name := by
  have h := nodeType.isLt
  rw [hasFlag_eq _ 0x10 4 rfl, hasFlag_eq _ 0x20 5 rfl, hasFlag_eq _ 0x40 6 rfl,
    hasFlag_eq _ 0x80 7 rfl, toNat_flagsByte]
  cases location <;> cases feature1 <;> cases feature2 <;> cases name <;>
    simp only [Bool.toNat_true, Bool.toNat_false, decide_eq_true_eq, decide_eq_false_iff_not] <;>
    omega

theorem nodeType_flagsByte :
    (flagsByte nodeType location feature1 feature2 name &&& 0x0F).toNat = nodeType := by
  have h := nodeType.isLt
  rw [toNat_and_mask _ 0x0F 4 rfl, toNat_flagsByte]
  omega

end Flags

/-! ## Encoding -/

/-- A text that can be a name: without NUL, and without blanks around it. -/
structure PlainName where
  text : String
  no_nul : ∀ c ∈ text.toList, c.toNat ≠ 0
  trimmed : trimSpace text = text

/-- Coordinates in range, in millionths of degrees. -/
structure MicroLocation where
  lat : Int32
  lng : Int32
  lat_range : -90000000 ≤ lat.toInt ∧ lat.toInt ≤ 90000000
  lng_range : -180000000 ≤ lng.toInt ∧ lng.toInt ≤ 180000000

/-- The values of an advert. -/
structure AdvertFields where
  publicKey : List UInt8
  timestamp : UInt32
  signature : List UInt8
  nodeType : Fin 16
  location : Option MicroLocation
  feature1 : Option (UInt8 × UInt8)
  feature2 : Option (UInt8 × UInt8)
  name : Option PlainName
  length_publicKey : publicKey.length = 32
  length_signature : signature.length = 64

def encodeLocation : Option MicroLocation → List UInt8
  | none => []
  | some location => littleEndianBytes location.lat.toUInt32 ++ littleEndianBytes location.lng.toUInt32

def encodeFeature : Option (UInt8 × UInt8) → List UInt8
  | none => []
  | some (a, b) => [a, b]

def encodeName : Option PlainName → List UInt8
  | none => []
  | some name => encodeUTF8 name.text

namespace AdvertFields

def flags (f : AdvertFields) : UInt8 :=
  flagsByte f.nodeType f.location.isSome f.feature1.isSome f.feature2.isSome f.name.isSome

/-- The flags and the parts that are there, with NULs behind them. -/
def appdata (f : AdvertFields) (nuls : Nat) : List UInt8 :=
  f.flags :: (encodeLocation f.location ++ (encodeFeature f.feature1 ++ (encodeFeature f.feature2 ++
    (encodeName f.name ++ List.replicate nuls 0))))

def encode (f : AdvertFields) (nuls : Nat) : List UInt8 :=
  f.publicKey ++ (littleEndianBytes f.timestamp ++ (f.signature ++ f.appdata nuls))

/-- The advert with these values. -/
def advert (f : AdvertFields) : Advert where
  publicKey := upperHex f.publicKey
  timestamp := f.timestamp
  flags := f.flags
  nodeType := (f.nodeType : Nat)
  role := nodeRoleFromType (f.nodeType : Nat)
  latitude := f.location.map fun location => degrees location.lat
  longitude := f.location.map fun location => degrees location.lng
  name := (f.name.map PlainName.text).getD ""
  locationSource := if f.location.isSome then "advert" else ""

end AdvertFields

/-! ## Coordinates -/

/-- Degrees that are in range are a double in range, next to the millionths. -/
theorem degrees_range (raw : Int32) {n : ℤ} (hn : |n| ≤ 180) (hlo : -n * 1000000 ≤ raw.toInt)
    (hhi : raw.toInt ≤ n * 1000000) :
    (F64.fin (-n)).le (degrees raw) = true ∧ (degrees raw).le (.fin n) = true := by
  have hlow : ((-n : ℤ) : ℚ) ≤ raw.toInt / 1000000 := by
    rw [le_div_iff₀ (by norm_num)]
    exact_mod_cast hlo
  have hhigh : (raw.toInt / 1000000 : ℚ) ≤ (n : ℤ) := by
    rw [div_le_iff₀ (by norm_num)]
    exact_mod_cast hhi
  have hsmall : |(raw.toInt / 1000000 : ℚ)| < 2 ^ (52 + 1) := by
    have hbound : (n : ℚ) ≤ 180 := by exact_mod_cast (abs_le.mp hn).2
    rw [abs_lt]
    push_cast at hlow
    constructor <;> linarith
  constructor
  · refine decide_eq_true ?_
    have := le_roundFloat64 hsmall hlow
    push_cast at this
    exact this
  · exact decide_eq_true (roundFloat64_le hsmall hhigh)

/-- The millionths can be read off the degrees. -/
theorem abs_degrees_sub_lt (raw : Int32) :
    ∃ value, degrees raw = .fin value ∧ |value * 1000000 - raw.toInt| < 1 / 2 := by
  refine ⟨_, rfl, ?_⟩
  have hraw : |(raw.toInt : ℚ)| ≤ 2 ^ 31 := by
    have hlo := raw.le_toInt
    have hhi := raw.toInt_lt
    rw [abs_le]
    constructor
    · exact_mod_cast hlo
    · exact_mod_cast hhi.le
  have hsmall : |(raw.toInt / 1000000 : ℚ)| < 2 ^ (11 + 1) := by
    rw [abs_div, abs_of_pos (show (0 : ℚ) < 1000000 by norm_num), div_lt_iff₀ (by norm_num)]
    exact hraw.trans_lt (by norm_num)
  have herror := (abs_roundFloat64_sub_le (raw.toInt / 1000000 : ℚ)).trans
    (div_le_div_of_nonneg_right (ulp_le hsmall) zero_le_two)
  have hscale : roundFloat64 (raw.toInt / 1000000) * 1000000 - raw.toInt =
      (roundFloat64 (raw.toInt / 1000000) - raw.toInt / 1000000) * 1000000 := by ring
  rw [hscale, abs_mul, abs_of_pos (show (0 : ℚ) < 1000000 by norm_num)]
  refine (mul_le_mul_of_nonneg_right herror (by norm_num)).trans_lt ?_
  norm_num

end CartoLive.Meshcore
