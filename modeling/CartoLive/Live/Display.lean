import CartoLive.Live.Events
import Mathlib.Algebra.GroupWithZero.Nat

/-!
# Labels, identifiers and coordinates of the public boundary

What `public.go` and `coordinates.go` do to a name, a key or a position before
it leaves the backend.

Three things come from outside and are a parameter (`LiveEnv`) of everything
built on them: the process-wide coordinate policy, the four regular expressions
of `redactPublicMessageText`, and the rounded logarithm in `frequencyBucket`.
-/

namespace CartoLive.Live

open CartoLive.Go

/-! ## The environment -/

structure CoordinateBounds where
  minLat : F64
  maxLat : F64
  minLng : F64
  maxLng : F64
  deriving DecidableEq

/-- The process-wide settings and library calls that the public records are
built with. -/
class LiveEnv where
  /-- `CurrentCoordinatePolicy().Bounds`. -/
  bounds : CoordinateBounds
  /-- The four replacements of `redactPublicMessageText`. -/
  redact : String → String
  /-- `int(math.Round(math.Log1p(count) / math.Log1p(maxCount + 1) * 4))`. -/
  strength : Int → Int → Int

/-- `WorldCoordinateBounds`. -/
def worldCoordinateBounds : CoordinateBounds :=
  { minLat := .fin (-85), maxLat := .fin 85, minLng := .fin (-180), maxLng := .fin 180 }

/-- The default policy, a text filter that finds nothing to redact, and routes
that are all as strong as the strongest. -/
@[reducible] def defaultEnv : LiveEnv :=
  { bounds := worldCoordinateBounds, redact := id, strength := fun _ _ => 4 }

/-! ## Coordinates -/

/-- `CoordinatePolicy.Valid`. -/
def CoordinateBounds.validPoint (p : CoordinateBounds) (lat lng : F64) : Bool :=
  !lat.isNaN && !lng.isNaN && !lat.isInf && !lng.isInf &&
    !lat.eqb (.fin 0) && !lng.eqb (.fin 0) &&
    p.minLat.le lat && lat.le p.maxLat && p.minLng.le lng && lng.le p.maxLng

structure PublicMapInclusion where
  mappable : Bool
  reason : String
  positionSource : String
  deriving DecidableEq

def mapIncludeMappable : String := "mappable"
def mapIncludeMissingCoords : String := "missing_coords"
def mapIncludeZeroCoords : String := "zero_coords"
def mapIncludeOutsideBounds : String := "outside_bounds"
def mapIncludeIATAFiltered : String := "iata_filtered"
def mapIncludeNodePositionUsed : String := "node_position_used"
def mapIncludeObserverOnly : String := "observer_only"
def mapIncludeObserverPositionUsed : String := "observer_position_used"

/-- `CoordinatePolicy.Inclusion`. -/
def CoordinateBounds.inclusion (p : CoordinateBounds) (lat lng : Option F64)
    (positionSource : String) : PublicMapInclusion :=
  match lat, lng with
  | some lat, some lng =>
    if lat.eqb (.fin 0) || lng.eqb (.fin 0) then
      { mappable := false, reason := mapIncludeZeroCoords, positionSource := "" }
    else if !p.validPoint lat lng then
      { mappable := false, reason := mapIncludeOutsideBounds, positionSource := "" }
    else
      { mappable := true, reason := mapIncludeMappable, positionSource := trimSpace positionSource }
  | _, _ => { mappable := false, reason := mapIncludeMissingCoords, positionSource := "" }

section Env

variable [LiveEnv]

/-- `ValidPublicCoords`. -/
def validPublicCoords (lat lng : F64) : Bool := LiveEnv.bounds.validPoint lat lng

/-- `coordinateInclusion`. -/
def coordinateInclusion (lat lng : Option F64) (positionSource : String) : PublicMapInclusion :=
  LiveEnv.bounds.inclusion lat lng positionSource

def validEndpoint (endpoint : EdgeEndpoint) : Bool := validPublicCoords endpoint.lat endpoint.lng

/-- A position that the policy includes is a pair of coordinates. -/
theorem coordinateInclusion_mappable {lat lng : Option F64} {positionSource : String}
    (h : (coordinateInclusion lat lng positionSource).mappable = true) :
    ∃ x y, lat = some x ∧ lng = some y ∧ validPublicCoords x y = true := by
  unfold coordinateInclusion CoordinateBounds.inclusion at h
  split at h
  · rename_i x y
    split at h
    · cases h
    · split at h
      · cases h
      · rename_i hv
        exact ⟨x, y, rfl, rfl, by simpa [validPublicCoords] using hv⟩
  · cases h

end Env

/-! ## Text -/

/-- `len` of a Go string: its bytes. -/
def byteLen (s : String) : Nat := (s.toList.map Char.utf8Size).sum

/-- The characters that `PublicDisplayText` turns into blanks, drops or keeps;
34, 39 and 96 are the three quotation marks. -/
def displayChar (c : Char) : Option Char :=
  if c = '\n' ∨ c = '\r' ∨ c = '\t' then some ' '
  else if c ∈ ['<', '>', '&', '='] ∨ c.toNat ∈ [34, 39, 96] then none
  else if isControl c ∨ c.toNat = 0x2028 ∨ c.toNat = 0x2029 then none
  else some c

/-- `PublicDisplayText`. -/
def publicDisplayText (value : String) (maxRunes : Nat) : String :=
  let value := trimSpace (String.ofList (value.toList.rdropWhile fun c => c.toNat = 0))
  if value = "" then ""
  else
    let value := String.ofList (value.toList.filterMap displayChar)
    let value := " ".intercalate (fields value)
    if maxRunes = 0 then value else String.ofList (value.toList.take maxRunes)

def isHexDigit (c : Char) : Bool :=
  ('0' ≤ c && c ≤ '9') || ('a' ≤ c && c ≤ 'f') || ('A' ≤ c && c ≤ 'F')

/-- `looksSensitiveHex`. -/
def looksSensitiveHex (value : String) (minLength : Nat) : Bool :=
  let value := trimSpace value
  !(byteLen value < minLength) && value.toList.all isHexDigit

/-- `publicSafeToken`. -/
def publicSafeToken (value : String) : Bool :=
  !(96 < byteLen value) &&
    value.toList.all fun r =>
      ('a' ≤ r && r ≤ 'z') || ('A' ≤ r && r ≤ 'Z') || ('0' ≤ r && r ≤ '9') ||
        r ∈ ['-', '_', '.', ':']

/-- `normalizeRole`. -/
def normalizeRole (role : String) : String :=
  if role ∈ ["repeater", "room_server", "companion", "sensor"] then role else "unknown"

/-- `displayLabel`. -/
def displayLabel (name role : String) : String :=
  let name := publicDisplayText name 80
  if name ≠ "" ∧ looksSensitiveHex name 8 = false then name
  else if normalizeRole role = "repeater" then "Repeater"
  else if normalizeRole role = "room_server" then "Room"
  else if normalizeRole role = "companion" then "Companion"
  else if normalizeRole role = "sensor" then "Sensor"
  else "Node"

/-- `publicObserverLabel`. -/
def publicObserverLabel (name iata : String) : String :=
  let name := publicDisplayText name 80
  if name ≠ "" ∧ looksSensitiveHex name 8 = false then name
  else if upperTrim iata ≠ "" then upperTrim iata ++ " observer"
  else "Observer"

section Env

variable [LiveEnv]

/-- `redactPublicMessageText`. -/
def redactPublicMessageText (value : String) : String := trimSpace (LiveEnv.redact value)

/-- `publicMessageText`. -/
def publicMessageText (value : String) : String :=
  if trimSpace value = "" then ""
  else publicDisplayText (redactPublicMessageText (trimSpace value)) 500

/-- `publicMessageSender`. -/
def publicMessageSender (value : String) : String :=
  if trimSpace value = "" then ""
  else publicDisplayText (redactPublicMessageText (trimSpace value)) 80

/-- `frequencyBucket`. -/
def frequencyBucket (count maxCount : Int) : Int :=
  if maxCount ≤ 1 then 0 else max 0 (min 4 (LiveEnv.strength count maxCount))

end Env

/-! ## Identifiers -/

/-- `publicNodeID`. -/
def publicNodeID (id : String) : String :=
  let id := trimSpace id
  if id = "" then "n-empty"
  else if looksSensitiveHex id 32 || !publicSafeToken id then "n-" ++ hex8 (fnv32a (toUpper id))
  else id

/-- `publicObserverNodeID`. -/
def publicObserverNodeID (observer : Observer) : String :=
  let seed := upperTrim observer.publicKey
  let seed := if seed = "" then upperTrim observer.name ++ "|" ++ upperTrim observer.iata else seed
  let id := "o-" ++ hex8 (fnv32a seed)
  let iata := toLower (trimSpace observer.iata)
  if iata = "" then id else id ++ "-" ++ iata

/-- `PublicRouteID`: the same identifier in both directions. -/
def publicRouteID (a b : String) : String :=
  let (a, b) := if b < a then (b, a) else (a, b)
  "r-" ++ hex8 (fnv32a (a ++ ":" ++ b))

/-- `publicPathHash3`. -/
def publicPathHash3 (value : String) : String :=
  let value := upperTrim value
  if byteLen value ≠ 6 ∨ looksSensitiveHex value 6 = false then "" else value

/-- `pathHash3FromPublicKey`: six hex digits are six bytes, so that taking
characters and taking bytes agree wherever the result is not empty. -/
def pathHash3FromPublicKey (value : String) : String :=
  let value := upperTrim value
  let head := String.ofList (value.toList.take 6)
  if byteLen value < 6 ∨ looksSensitiveHex head 6 = false then "" else head

/-- `observerLocationKey`. -/
def observerLocationKey (publicKey iata : String) : String :=
  upperTrim publicKey ++ "|" ++ upperTrim iata

end CartoLive.Live
