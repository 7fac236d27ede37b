import CartoLive.Lib.Keyed
import CartoLive.Web.Numbers

/-!
# Links to a shared view

`parseSharedView` and `buildSharedViewURL` of `shareView.ts`. The parameters of a URL are
the list that `URLSearchParams` keeps; how the list is written into a query and read back
(`encode` and `decode`) is the platform's. Numbers are exact, and a number of the view that
may be missing is `none` where it is missing or not finite.
-/

namespace CartoLive.Web

open CartoLive.Lib

/-! ## Parameters -/

abbrev URLSearchParams := List (String × String)

namespace URLSearchParams

def get (params : URLSearchParams) (name : String) : Option String :=
  (Keyed.get Prod.fst name params).map Prod.snd

def has (params : URLSearchParams) (name : String) : Bool := (params.get name).isSome

def delete (params : URLSearchParams) (name : String) : URLSearchParams :=
  params.filter fun entry => entry.1 ≠ name

/-- The first value of the name is replaced and the others are removed, or the value is added. -/
def set (params : URLSearchParams) (name value : String) : URLSearchParams :=
  match params with
  | [] => [(name, value)]
  | entry :: params =>
    if entry.1 = name then (name, value) :: delete params name else entry :: set params name value

theorem get_delete (params : URLSearchParams) (name other : String) :
    (params.delete name).get other = if name = other then none else params.get other := by
  unfold get delete
  have hget : Keyed.get Prod.fst other (params.filter fun entry => entry.1 ≠ name) =
      if decide (other ≠ name) then Keyed.get Prod.fst other params else none :=
    Keyed.get_filter_key (fun key => decide (key ≠ name)) other params
  rw [hget]
  by_cases h : name = other
  · simp [h]
  · simp [h, Ne.symm h]

theorem get_set (params : URLSearchParams) (name value other : String) :
    (params.set name value).get other = if name = other then some value else params.get other := by
  induction params with
  | nil =>
    rw [set, get, Keyed.get_cons, Keyed.get_nil]
    split
    · rfl
    · rfl
  | cons entry params ih =>
    rw [set]
    by_cases hentry : entry.1 = name
    · rw [if_pos hentry, get, Keyed.get_cons]
      by_cases h : name = other
      · rw [if_pos h, if_pos h]
        rfl
      · have hdelete := get_delete params name other
        rw [if_neg h] at hdelete
        rw [if_neg h, if_neg h, get, Keyed.get_cons, if_neg (hentry ▸ h)]
        exact hdelete
    · rw [if_neg hentry, get, get, Keyed.get_cons, Keyed.get_cons]
      by_cases hother : entry.1 = other
      · rw [if_pos hother, if_pos hother, if_neg (fun h => hentry (hother.trans h.symm))]
      · rw [if_neg hother, if_neg hother]
        exact ih

end URLSearchParams

/-- A URL: what is not its query, and the parameters. -/
structure URL where
  rest : String
  searchParams : URLSearchParams

/-- `search` of a URL whose parameters have been changed. -/
def URL.search (encode : URLSearchParams → String) (url : URL) : String :=
  if encode url.searchParams = "" then "" else "?" ++ encode url.searchParams

/-! ## The view of a link -/

structure SharedViewState where
  lat : ℚ
  lng : ℚ
  z : ℚ
  pitch : Option ℚ
  bearing : Option ℚ
  route : Option String
  node : Option String
  q : Option String
  deriving DecidableEq

structure MapViewState where
  lat : ℚ
  lng : ℚ
  z : ℚ
  pitch : Option ℚ
  bearing : Option ℚ

/-- Whether `/^[a-zA-Z0-9._:-]{1,96}$/` matches. -/
def isSafeIdentifier (candidate : String) : Bool :=
  let text := candidate.toList
  1 ≤ text.length && text.length ≤ 96 &&
    text.all fun c => c.isAlphanum || c = '.' || c = '_' || c = ':' || c = '-'

def safePublicIdentifier (value : Option String) : Option String :=
  (value.map trim).filter isSafeIdentifier

def fixedCoordinate (value : ℚ) : String := dropZeros (toFixed value 5)

def fixedZoom (value : ℚ) : String := dropZeros (toFixed value 2)

def fixedCameraAngle (value : ℚ) : String := dropZeros (toFixed value 1)

/-- `undefined`, or a number that is `none` where it is `NaN`. -/
def optionalNumberParam (params : URLSearchParams) (key : String) : Option (Option ℚ) :=
  (params.get key).map number

/-- Whether a number is given that is not finite, or outside of a range. -/
def isOutside (value : Option (Option ℚ)) (least most : ℚ) : Prop :=
  ∃ given ∈ value, ∀ x ∈ given, x < least ∨ x > most

instance (value : Option (Option ℚ)) (least most : ℚ) : Decidable (isOutside value least most) := by
  unfold isOutside
  infer_instance

def setOptionalNumberParam (params : URLSearchParams) (key : String) (value : Option ℚ)
    (formatter : ℚ → String) : URLSearchParams :=
  match value with
  | some value => params.set key (formatter value)
  | none => params.delete key

/-- The rest of `parseSharedView`, from the parameters on. -/
def parseParams (params : URLSearchParams) : Option SharedViewState := do
  let lat ← params.get "lat"
  let lng ← params.get "lng"
  let z ← params.get "z"
  let pitch := optionalNumberParam params "pitch"
  let bearing := optionalNumberParam params "bearing"
  let lat ← number lat
  let lng ← number lng
  let z ← number z
  if lat < -90 ∨ lat > 90 ∨ lng < -180 ∨ lng > 180 ∨ z < 0 ∨ z > 24 then none
  else if isOutside pitch 0 85 then none
  else if isOutside bearing (-180) 180 then none
  else
    let route := safePublicIdentifier (params.get "route")
    let node := if route.isSome then none else safePublicIdentifier (params.get "node")
    some { lat, lng, z, pitch := pitch.join, bearing := bearing.join, route, node, q := none }

/-- `parseSharedView`; the constructor of `URLSearchParams` leaves out one question mark. -/
def parseSharedView (decode : String → URLSearchParams) (search : String) :
    Option SharedViewState :=
  let text := if search.toList.head? = some '?' then search else "?" ++ search
  parseParams (decode (String.ofList text.toList.tail))

structure ShareOptions where
  route : Option String
  node : Option String

/-- The parameters that `buildSharedViewURL` sets and deletes. -/
def sharedViewParams (params : URLSearchParams) (view : MapViewState) (options : ShareOptions) :
    URLSearchParams :=
  let params := params.set "lat" (fixedCoordinate view.lat)
  let params := params.set "lng" (fixedCoordinate view.lng)
  let params := params.set "z" (fixedZoom view.z)
  let params := setOptionalNumberParam params "pitch" view.pitch fixedCameraAngle
  let params := setOptionalNumberParam params "bearing" view.bearing fixedCameraAngle
  let params := params.delete "route"
  let params := params.delete "node"
  let params :=
    match safePublicIdentifier options.route, safePublicIdentifier options.node with
    | some routeID, _ => params.set "route" routeID
    | none, some nodeID => params.set "node" nodeID
    | none, none => params
  ["q", "studio", "replayPacket", "replayRoute"].foldl URLSearchParams.delete params

/-- `buildSharedViewURL`, of a base that is a URL. -/
def buildSharedViewURL (base : URL) (view : MapViewState) (options : ShareOptions) : URL :=
  { base with searchParams := sharedViewParams base.searchParams view options }

end CartoLive.Web
