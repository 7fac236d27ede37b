import CartoLive.Go.Text

/-!
# Numbers of a message

How `message_extract.go` takes a number out of a JSON payload: from a JSON
number or from a text that `strconv.ParseFloat` accepts. `ParseFloat` accepts the
texts of not-a-number and of the infinities, which no JSON number stands for.
Its syntax of finite numbers is a parameter.
-/

namespace CartoLive.Mqtt

open CartoLive.Go

/-- A value of the payload, as far as `firstNumber` tells values apart. -/
inductive JsonValue
  | number (value : ℚ)
  | text (s : String)
  | other
  deriving DecidableEq

/-- `strconv.ParseFloat`; `parseNumber` reads finite numbers. -/
def parseFloat (parseNumber : String → Option ℚ) (s : String) : Option F64 :=
  if toLower s = "nan" then some .nan
  else if toLower s ∈ ["inf", "+inf", "infinity", "+infinity"] then some (.inf false)
  else if toLower s ∈ ["-inf", "-infinity"] then some (.inf true)
  else (parseNumber s).map .fin

/-- `firstNumber`. -/
def firstNumber (parseNumber : String → Option ℚ) (object : String → Option JsonValue) :
    List String → Option F64
  | [] => none
  | key :: keys =>
    match object key with
    | some (.number value) => some (.fin value)
    | some (.text s) =>
      match parseFloat parseNumber (trimSpace s) with
      | some parsed => some parsed
      | none => firstNumber parseNumber object keys
    | some .other | none => firstNumber parseNumber object keys

/-- `RSSI` of `Normalize`. -/
def normalizedRSSI (parseNumber : String → Option ℚ) (object : String → Option JsonValue) :
    Option F64 :=
  firstNumber parseNumber object ["RSSI", "rssi", "last_rssi"]

/-- `SNR` of `Normalize`. -/
def normalizedSNR (parseNumber : String → Option ℚ) (object : String → Option JsonValue) :
    Option F64 :=
  firstNumber parseNumber object ["SNR", "snr", "last_snr"]

end CartoLive.Mqtt
