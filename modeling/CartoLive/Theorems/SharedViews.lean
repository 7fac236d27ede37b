import CartoLive.Web.ShareView
import Mathlib

/-!
# Links to a view round-trip

What `buildSharedViewURL` puts under each name is found there again, whatever the base had,
and a shortened fixed text reads back as the rounded number, which rounding leaves in the
range that `parseSharedView` accepts.

## Main results

* `parse_buildSharedViewURL` : the view that a link gives back.
* `safePublicIdentifier_eq_some_iff` : which identifiers are safe.
-/

namespace CartoLive.Theorems.SharedViews

open CartoLive.Lib.Decimals CartoLive.Web URLSearchParams

variable {params : URLSearchParams} {view : MapViewState} {options : ShareOptions}

/-! ## Safe identifiers -/

theorem not_space_of_isSafe {candidate : String} (h : isSafeIdentifier candidate = true) :
    ∀ c ∈ candidate.toList, isJsSpace c = false := by
  intro c hc
  have hall := List.all_eq_true.mp (Bool.and_eq_true_iff.mp h).2 c hc
  rw [Bool.eq_false_iff]
  intro hspace
  simp only [isJsSpace, Go.isSpace, Bool.or_eq_true, Bool.and_eq_true, decide_eq_true_eq] at hspace
  have hcases : c.isAlphanum = true ∨ c = '.' ∨ c = '_' ∨ c = ':' ∨ c = '-' := by
    simpa [or_assoc] using hall
  rcases hcases with hc | rfl | rfl | rfl | rfl
  · have hrange : 48 ≤ c.toNat ∧ c.toNat ≤ 122 := by
      simp only [Char.isAlphanum, Char.isAlpha, Char.isUpper, Char.isLower, Char.isDigit,
        Bool.or_eq_true, Bool.and_eq_true, decide_eq_true_eq, UInt32.le_iff_toNat_le] at hc
      have hupper : 'A'.val.toNat = 65 ∧ 'Z'.val.toNat = 90 := ⟨rfl, rfl⟩
      have hlower : 'a'.val.toNat = 97 ∧ 'z'.val.toNat = 122 := ⟨rfl, rfl⟩
      have hdigit : '0'.val.toNat = 48 ∧ '9'.val.toNat = 57 := ⟨rfl, rfl⟩
      have htoNat : c.toNat = c.val.toNat := rfl
      omega
    omega
  all_goals exact absurd hspace (by decide)

/-- A safe identifier is what is left of the value without the white space around it. -/
theorem safePublicIdentifier_eq_some_iff {value : Option String} {identifier : String} :
    safePublicIdentifier value = some identifier ↔
      (∃ text ∈ value, trim text = identifier) ∧ isSafeIdentifier identifier = true := by
  unfold safePublicIdentifier
  rw [Option.filter_eq_some_iff]
  simp [Option.map_eq_some_iff]

/-- A safe identifier is safe as it is. -/
theorem safePublicIdentifier_of_safe {value : Option String} {identifier : String}
    (h : safePublicIdentifier value = some identifier) :
    safePublicIdentifier (some identifier) = some identifier := by
  obtain ⟨-, hsafe⟩ := safePublicIdentifier_eq_some_iff.mp h
  exact safePublicIdentifier_eq_some_iff.mpr
    ⟨⟨identifier, rfl, trim_eq_self (not_space_of_isSafe hsafe)⟩, hsafe⟩

/-! ## What the parameters of a link are -/

theorem get_setOptionalNumberParam (params : URLSearchParams) (key : String) (value : Option ℚ)
    (formatter : ℚ → String) (other : String) :
    (setOptionalNumberParam params key value formatter).get other =
      if key = other then value.map formatter else params.get other := by
  cases value with
  | none => exact get_delete params key other
  | some value => exact get_set params key (formatter value) other

/-- The numbers of a link, whatever the base had. -/
theorem get_sharedViewParams_numbers (params : URLSearchParams) (view : MapViewState)
    (options : ShareOptions) :
    (sharedViewParams params view options).get "lat" = some (fixedCoordinate view.lat) ∧
    (sharedViewParams params view options).get "lng" = some (fixedCoordinate view.lng) ∧
    (sharedViewParams params view options).get "z" = some (fixedZoom view.z) ∧
    (sharedViewParams params view options).get "pitch" = view.pitch.map fixedCameraAngle ∧
    (sharedViewParams params view options).get "bearing" = view.bearing.map fixedCameraAngle := by
  unfold sharedViewParams
  cases safePublicIdentifier options.route <;> cases safePublicIdentifier options.node <;>
    simp [get_set, get_delete, get_setOptionalNumberParam]

/-- The route of a link, or else its node. -/
theorem get_sharedViewParams_selection (params : URLSearchParams) (view : MapViewState)
    (options : ShareOptions) :
    (sharedViewParams params view options).get "route" = safePublicIdentifier options.route ∧
    (sharedViewParams params view options).get "node" =
      if (safePublicIdentifier options.route).isSome then none
      else safePublicIdentifier options.node := by
  unfold sharedViewParams
  cases safePublicIdentifier options.route <;> cases safePublicIdentifier options.node <;>
    simp [get_set, get_delete]

/-! ## What reads back -/

/-- The ranges that `parseSharedView` accepts. -/
structure InRange (view : MapViewState) : Prop where
  lat : -90 ≤ view.lat ∧ view.lat ≤ 90
  lng : -180 ≤ view.lng ∧ view.lng ≤ 180
  z : 0 ≤ view.z ∧ view.z ≤ 24
  pitch : ∀ pitch ∈ view.pitch, 0 ≤ pitch ∧ pitch ≤ 85
  bearing : ∀ bearing ∈ view.bearing, -180 ≤ bearing ∧ bearing ≤ 180

theorem roundTo_mem_signed (decimals : Nat) {x b : ℚ} (n : Nat) (hb : (n : ℚ) = b)
    (h : -b ≤ x ∧ x ≤ b) : -b ≤ roundTo decimals x ∧ roundTo decimals x ≤ b := by
  subst hb
  exact abs_le.mp (abs_roundTo_le (abs_le.mpr h))

theorem roundTo_mem_unsigned (decimals : Nat) {x b : ℚ} (n : Nat) (hb : (n : ℚ) = b)
    (h : 0 ≤ x ∧ x ≤ b) : 0 ≤ roundTo decimals x ∧ roundTo decimals x ≤ b := by
  subst hb
  have habs : |x| ≤ n := by rw [abs_of_nonneg h.1]; exact h.2
  exact ⟨roundTo_nonneg h.1, (abs_le.mp (abs_roundTo_le habs)).2⟩

theorem number_fixedCoordinate (x : ℚ) : number (fixedCoordinate x) = some (roundTo 5 x) := by
  rw [fixedCoordinate, number_dropZeros_toFixed x (by decide)]

theorem number_fixedZoom (x : ℚ) : number (fixedZoom x) = some (roundTo 2 x) := by
  rw [fixedZoom, number_dropZeros_toFixed x (by decide)]

theorem number_fixedCameraAngle (x : ℚ) : number (fixedCameraAngle x) = some (roundTo 1 x) := by
  rw [fixedCameraAngle, number_dropZeros_toFixed x (by decide)]

/-- An angle that is given reads back, rounded. -/
theorem optionalNumberParam_of_get {key : String} {value : Option ℚ}
    (h : params.get key = value.map fixedCameraAngle) :
    optionalNumberParam params key = value.map fun x => some (roundTo 1 x) := by
  rw [optionalNumberParam, h]
  cases value with
  | none => rfl
  | some x => rw [Option.map_some, Option.map_some, Option.map_some, number_fixedCameraAngle]

theorem not_isOutside {value : Option ℚ} {least most : ℚ}
    (h : ∀ x ∈ value, least ≤ roundTo 1 x ∧ roundTo 1 x ≤ most) :
    ¬ isOutside (value.map fun x => some (roundTo 1 x)) least most := by
  rintro ⟨given, hgiven, hout⟩
  obtain ⟨x, hx, rfl⟩ := Option.map_eq_some_iff.mp hgiven
  obtain ⟨hleast, hmost⟩ := h x hx
  rcases hout _ rfl with hlt | hgt
  · exact absurd hleast (not_le.mpr hlt)
  · exact absurd hmost (not_le.mpr hgt)

/-- The view that a link gives back. -/
def roundedView (view : MapViewState) (options : ShareOptions) : SharedViewState where
  lat := roundTo 5 view.lat
  lng := roundTo 5 view.lng
  z := roundTo 2 view.z
  pitch := view.pitch.map (roundTo 1)
  bearing := view.bearing.map (roundTo 1)
  route := safePublicIdentifier options.route
  node :=
    if (safePublicIdentifier options.route).isSome then none
    else safePublicIdentifier options.node
  q := none

theorem safePublicIdentifier_idem (value : Option String) :
    safePublicIdentifier (safePublicIdentifier value) = safePublicIdentifier value := by
  cases h : safePublicIdentifier value with
  | none => rfl
  | some identifier => exact safePublicIdentifier_of_safe h

theorem parseParams_sharedViewParams (params : URLSearchParams) (hview : InRange view)
    (options : ShareOptions) :
    parseParams (sharedViewParams params view options) = some (roundedView view options) := by
  obtain ⟨hlat, hlng, hz, hpitch, hbearing⟩ := get_sharedViewParams_numbers params view options
  obtain ⟨hroute, hnode⟩ := get_sharedViewParams_selection params view options
  have hlat' := roundTo_mem_signed 5 90 (by norm_num) hview.lat
  have hlng' := roundTo_mem_signed 5 180 (by norm_num) hview.lng
  have hz' := roundTo_mem_unsigned 2 24 (by norm_num) hview.z
  have hranges : ¬ (roundTo 5 view.lat < -90 ∨ roundTo 5 view.lat > 90 ∨
      roundTo 5 view.lng < -180 ∨ roundTo 5 view.lng > 180 ∨
      roundTo 2 view.z < 0 ∨ roundTo 2 view.z > 24) := by
    simp only [not_or, not_lt, gt_iff_lt]
    exact ⟨hlat'.1, hlat'.2, hlng'.1, hlng'.2, hz'.1, hz'.2⟩
  have hpitch' := not_isOutside fun x hx =>
    roundTo_mem_unsigned 1 85 (by norm_num) (hview.pitch x hx)
  have hbearing' := not_isOutside fun x hx =>
    roundTo_mem_signed 1 180 (by norm_num) (hview.bearing x hx)
  have hjoin : ∀ value : Option ℚ,
      (value.map fun x => some (roundTo 1 x)).join = value.map (roundTo 1) := by
    intro value
    cases value <;> rfl
  unfold parseParams
  simp only [hlat, hlng, hz, Option.bind_eq_bind, Option.bind_some, number_fixedCoordinate,
    number_fixedZoom, optionalNumberParam_of_get hpitch, optionalNumberParam_of_get hbearing,
    if_neg hranges, if_neg hpitch', if_neg hbearing', hroute, hnode, hjoin,
    safePublicIdentifier_idem, roundedView]
  congr 2
  split
  · rfl
  · exact safePublicIdentifier_idem _

/-- The query of a link reads back as its parameters. -/
theorem parseSharedView_search {encode : URLSearchParams → String}
    {decode : String → URLSearchParams} (hlossless : ∀ params, decode (encode params) = params)
    (url : URL) : parseSharedView decode (url.search encode) = parseParams url.searchParams := by
  unfold parseSharedView URL.search
  by_cases hempty : encode url.searchParams = ""
  · have hdecode := hlossless url.searchParams
    rw [hempty] at hdecode
    rw [if_pos hempty, if_neg (by decide)]
    exact congrArg parseParams hdecode
  · have hhead : ("?" ++ encode url.searchParams).toList.head? = some '?' := by
      rw [String.toList_append]
      rfl
    have htail : ("?" ++ encode url.searchParams).toList.tail =
        (encode url.searchParams).toList := by
      rw [String.toList_append]
      rfl
    rw [if_neg hempty]
    dsimp only
    rw [if_pos hhead, htail, String.ofList_toList, hlossless]

/-- Whatever the base has in its query, the link to a view in range gives back the view rounded,
with an angle exactly where one is given, and the route where it is safe, or else the node. -/
theorem parse_buildSharedViewURL {encode : URLSearchParams → String}
    {decode : String → URLSearchParams} (hlossless : ∀ params, decode (encode params) = params)
    (base : URL) {view : MapViewState} (hview : InRange view) (options : ShareOptions) :
    parseSharedView decode ((buildSharedViewURL base view options).search encode) =
      some (roundedView view options) := by
  rw [parseSharedView_search hlossless]
  exact parseParams_sharedViewParams base.searchParams hview options

/-- A base with a query of its own. -/
def oldBase : URL where
  rest := "https://routes.canadaverse.org/"
  searchParams := [("old", "1"), ("route", "old")]

def ottawa : MapViewState where
  lat := 45.4215296
  lng := -75.6971931
  z := 8.125
  pitch := none
  bearing := some (-11.24)

def ottawaParams : URLSearchParams :=
  [("old", "1"), ("lat", "45.42153"), ("lng", "-75.69719"), ("z", "8.13"), ("bearing", "-11.2"),
    ("node", "node-123")]

/-- There is a lossless encoding that writes one list of parameters in a given way. -/
theorem exists_lossless (params : URLSearchParams) (query : String) :
    ∃ (encode : URLSearchParams → String) (decode : String → URLSearchParams),
      (∀ params, decode (encode params) = params) ∧ encode params = query := by
  classical
  have : Countable Char :=
    Function.Injective.countable (f := Char.toNat) fun _ _ h => Char.toNat_inj.mp h
  have : Countable String :=
    Function.Injective.countable (f := String.toList) fun _ _ h => String.toList_inj.mp h
  obtain ⟨number, hnumber⟩ := exists_injective_nat (List (String × String))
  -- the other lists are numbered, by texts longer than the query
  let encode : URLSearchParams → String := fun other =>
    if other = params then query
    else String.ofList (List.replicate (query.toList.length + 1 + number other) '0')
  have hlength : ∀ other, other ≠ params →
      (encode other).toList.length = query.toList.length + 1 + number other := by
    intro other hother
    simp only [encode, if_neg hother, String.toList_ofList, List.length_replicate]
  have hself : encode params = query := if_pos rfl
  have hinjective : Function.Injective encode := by
    intro a b hab
    have hlen : (encode a).toList.length = (encode b).toList.length := by rw [hab]
    by_cases ha : a = params <;> by_cases hb : b = params
    · rw [ha, hb]
    · rw [ha, hself] at hlen
      have := hlength b hb
      omega
    · rw [hb, hself] at hlen
      have := hlength a ha
      omega
    · have ha' := hlength a ha
      have hb' := hlength b hb
      exact hnumber (by omega)
  exact ⟨encode, Function.invFun encode, Function.leftInverse_invFun hinjective, hself⟩

theorem parse_buildSharedViewURL_ottawa :
    ∃ (encode : URLSearchParams → String) (decode : String → URLSearchParams),
      encode ottawaParams =
        "old=1&lat=45.42153&lng=-75.69719&z=8.13&bearing=-11.2&node=node-123" ∧
      (buildSharedViewURL oldBase ottawa { route := none, node := some " node-123" }).searchParams =
        ottawaParams ∧
      parseSharedView decode ((buildSharedViewURL oldBase ottawa
          { route := none, node := some " node-123" }).search encode) =
        some { lat := 45.42153, lng := -75.69719, z := 8.13, pitch := none, bearing := some (-11.2)
               route := none, node := some "node-123", q := none } := by
  obtain ⟨encode, decode, hlossless, hencode⟩ := exists_lossless ottawaParams
    "old=1&lat=45.42153&lng=-75.69719&z=8.13&bearing=-11.2&node=node-123"
  have hview : InRange ottawa :=
    ⟨by decide +kernel, by decide +kernel, by decide +kernel, nofun, fun bearing hbearing => by
      obtain rfl := Option.some.inj hbearing
      decide +kernel⟩
  refine ⟨encode, decode, hencode, by decide +kernel, ?_⟩
  rw [parse_buildSharedViewURL hlossless oldBase hview]
  decide +kernel

end CartoLive.Theorems.SharedViews
