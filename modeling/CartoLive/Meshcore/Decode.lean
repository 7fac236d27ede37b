import CartoLive.Go.Text

/-!
# Packets

`ParsePacket` of `decode.go` with its error texts, the names of
`payload_types.go`, and what a parsed packet says about its path. A byte slice is
a list. The SHA-256 sum behind `PacketHash` is a parameter, since nothing here
depends on which sum it is.
-/

namespace CartoLive.Meshcore

open CartoLive.Go

/-! ## Names -/

def payloadRequest : Nat := 0x00
def payloadResponse : Nat := 0x01
def payloadPlainText : Nat := 0x02
def payloadAck : Nat := 0x03
def payloadAdvert : Nat := 0x04
def payloadGroupText : Nat := 0x05
def payloadGroupData : Nat := 0x06
def payloadAnonReq : Nat := 0x07
def payloadPath : Nat := 0x08
def payloadTrace : Nat := 0x09
def payloadMultipart : Nat := 0x0A
def payloadControl : Nat := 0x0B
def payloadRawCustom : Nat := 0x0F

def routeTransportFlood : Nat := 0x00
def routeFlood : Nat := 0x01
def routeDirect : Nat := 0x02
def routeTransportDirect : Nat := 0x03

def payloadTypeName (v : Nat) : String :=
  if v = payloadRequest then "REQUEST"
  else if v = payloadResponse then "RESPONSE"
  else if v = payloadPlainText then "PLAIN_TEXT"
  else if v = payloadAck then "ACK"
  else if v = payloadAdvert then "ADVERT"
  else if v = payloadGroupText then "GROUP_TEXT"
  else if v = payloadGroupData then "GROUP_DATA"
  else if v = payloadAnonReq then "ANON_REQUEST"
  else if v = payloadPath then "RETURNED_PATH"
  else if v = payloadTrace then "TRACE"
  else if v = payloadMultipart then "MULTIPART"
  else if v = payloadControl then "CONTROL"
  else if v = payloadRawCustom then "CUSTOM"
  else "RESERVED"

def routeTypeName (v : Nat) : String :=
  if v = routeTransportFlood then "TRANSPORT_FLOOD"
  else if v = routeFlood then "FLOOD"
  else if v = routeDirect then "DIRECT"
  else if v = routeTransportDirect then "TRANSPORT_DIRECT"
  else "UNKNOWN"

def hasTransportCodes (routeType : Nat) : Bool :=
  routeType = routeTransportFlood || routeType = routeTransportDirect

/-- What is read of a message: `DecodedPublicMessage` of `packet_summary.go`. -/
structure DecodedPublicMessage where
  sender : String := ""
  text : String := ""
  deriving DecidableEq

/-! ## Hexadecimal text -/

/-- The two digits of a byte. -/
def hexByte (b : UInt8) : List Char := [Nat.digitChar (b.toNat / 16), Nat.digitChar (b.toNat % 16)]

/-- `hex.EncodeToString`. -/
def encodeHex (bytes : List UInt8) : String := String.ofList (bytes.flatMap hexByte)

/-- `strings.ToUpper(hex.EncodeToString(bytes))`. -/
def upperHex (bytes : List UInt8) : String := toUpper (encodeHex bytes)

theorem length_flatMap_hexByte (bytes : List UInt8) :
    (bytes.flatMap hexByte).length = 2 * bytes.length := by
  induction bytes with
  | nil => rfl
  | cons b rest ih =>
    rw [List.flatMap_cons, List.length_append, ih]
    simp [hexByte]
    omega

@[simp] theorem toUpper_upperHex (bytes : List UInt8) : toUpper (upperHex bytes) = upperHex bytes :=
  toUpper_idem _

theorem isSpace_digitChar : ∀ n < 16, isSpace (Nat.digitChar n).toUpper = false := by decide

theorem isSpace_of_mem_upperHex {bytes : List UInt8} {c : Char} (h : c ∈ (upperHex bytes).toList) :
    isSpace c = false := by
  rw [upperHex, toUpper, String.toList_ofList, encodeHex, String.toList_ofList] at h
  obtain ⟨digit, hdigit, rfl⟩ := List.mem_map.mp h
  obtain ⟨b, -, hb⟩ := List.mem_flatMap.mp hdigit
  have hlt : b.toNat < 256 := b.toNat_lt
  rcases List.mem_pair.mp hb with rfl | rfl
  · exact isSpace_digitChar _ (by omega)
  · exact isSpace_digitChar _ (by omega)

/-- Hexadecimal text has nothing to trim. -/
@[simp] theorem trimSpace_upperHex (bytes : List UInt8) :
    trimSpace (upperHex bytes) = upperHex bytes := by
  have hdigit : ∀ c ∈ (upperHex bytes).toList, ¬isSpace c = true := fun c hc => by
    rw [isSpace_of_mem_upperHex hc]
    exact Bool.false_ne_true
  rw [trimSpace, List.dropWhile_eq_self_iff.mpr fun hne => hdigit _ (List.getElem_mem _),
    List.rdropWhile_eq_self_iff.mpr fun hne => hdigit _ (List.getLast_mem hne),
    String.ofList_toList]

/-- The low bits of a byte, below a power of two. -/
theorem toNat_and_mask (b mask : UInt8) (k : Nat) (hmask : mask.toNat = 2 ^ k - 1) :
    (b &&& mask).toNat = b.toNat % 2 ^ k := by
  rw [UInt8.toNat_and, hmask, Nat.and_two_pow_sub_one_eq_mod]

/-! ## `ParsePacket` -/

structure ParsedPacket where
  packetHash : String
  rawHex : String
  routeType : Nat
  routeTypeName : String
  payloadType : Nat
  payloadTypeName : String
  payloadVersion : Nat
  transportCodes : List UInt8
  hashSize : Nat
  hopCount : Nat
  pathBytes : List UInt8
  pathChunks : List String
  payload : List UInt8
  invalidForMap : Bool
  invalidReason : String
  deriving DecidableEq

/-- `chunkPath`: the turns of its loop are those with `i+hashSize <= len(path)`. -/
def chunkPath (path : List UInt8) (hashSize : Nat) : List String :=
  (List.range (path.length / hashSize)).map fun turn =>
    upperHex ((path.drop (turn * hashSize)).take hashSize)

/-- `PacketHash`. -/
def packetHash (sha256 : List UInt8 → List UInt8) (raw : List UInt8) : String :=
  String.ofList ((encodeHex (sha256 raw)).toList.take 16)

/-- The packet that `ParsePacket` builds of its header, the bytes between header and path length,
the byte of the path length and the rest. -/
def assemble (sha256 : List UInt8 → List UInt8) (raw : List UInt8) (header : UInt8)
    (transport : List UInt8) (pathLength : UInt8) (rest : List UInt8) : ParsedPacket :=
  let hashSize := (pathLength >>> 6).toNat + 1
  let hopCount := (pathLength &&& 0x3F).toNat
  let routeType := (header &&& 0x03).toNat
  let payloadType := ((header >>> 2) &&& 0x0F).toNat
  let pathBytes := rest.take (hashSize * hopCount)
  let invalid := decide (hashSize = 4 ∧ payloadType ≠ payloadTrace)
  { packetHash := packetHash sha256 raw
    rawHex := upperHex raw
    routeType
    routeTypeName := routeTypeName routeType
    payloadType
    payloadTypeName := payloadTypeName payloadType
    payloadVersion := ((header >>> 6) &&& 0x03).toNat
    transportCodes := transport
    hashSize
    hopCount
    pathBytes
    pathChunks := chunkPath pathBytes hashSize
    payload := rest.drop (hashSize * hopCount)
    invalidForMap := invalid
    invalidReason := if invalid then "reserved_4_byte_path_non_trace" else "" }

def parsePacket (sha256 : List UInt8 → List UInt8) (raw : List UInt8) :
    Except String ParsedPacket :=
  if raw.length < 2 then
    .error ("packet too short: " ++ toString raw.length ++ " bytes")
  else
    let header := raw.headD 0
    let coded := hasTransportCodes (header &&& 0x03).toNat
    if coded ∧ raw.length < 1 + 4 + 1 then
      .error "packet too short for transport codes"
    else
      let offset := if coded then 5 else 1
      if raw.length < offset + 1 then
        .error "packet missing path length"
      else
        let pathLength := raw.getD offset 0
        let pathBytesLen := ((pathLength >>> 6).toNat + 1) * (pathLength &&& 0x3F).toNat
        if raw.length < offset + 1 + pathBytesLen then
          .error ("packet path too short: need " ++ toString pathBytesLen ++ " bytes, have " ++
            toString (raw.length - (offset + 1)))
        else
          .ok (assemble sha256 raw header ((raw.take offset).drop 1) pathLength
            (raw.drop (offset + 1)))

/-! ## What is accepted -/

variable {sha256 : List UInt8 → List UInt8} {raw : List UInt8} {parsed : ParsedPacket}

theorem length_chunkPath (path : List UInt8) (hashSize : Nat) :
    (chunkPath path hashSize).length = path.length / hashSize := by
  simp [chunkPath]

/-- Each chunk is the text of as many bytes as a hash has. -/
theorem exists_of_mem_chunkPath {path : List UInt8} {hashSize : Nat} {chunk : String}
    (h : chunk ∈ chunkPath path hashSize) :
    ∃ bytes : List UInt8, bytes.length = hashSize ∧ chunk = upperHex bytes := by
  obtain ⟨turn, hturn, rfl⟩ := List.mem_map.mp h
  refine ⟨_, ?_, rfl⟩
  have hnext : (turn + 1) * hashSize ≤ path.length :=
    (Nat.mul_le_mul_right _ (List.mem_range.mp hturn)).trans (Nat.div_mul_le_self _ _)
  rw [Nat.add_mul, Nat.one_mul] at hnext
  rw [List.length_take, List.length_drop]
  omega

/-- What `ParsePacket` promises of a path. -/
structure ParsedPacket.PathParsed (parsed : ParsedPacket) : Prop where
  hashSize_pos : 0 < parsed.hashSize
  length_pathBytes : parsed.pathBytes.length = parsed.hashSize * parsed.hopCount
  pathChunks_eq : parsed.pathChunks = chunkPath parsed.pathBytes parsed.hashSize
  invalidForMap_iff : parsed.invalidForMap = true ↔
    parsed.hashSize = 4 ∧ parsed.payloadType ≠ payloadTrace

theorem assemble_pathParsed {header : UInt8} {transport : List UInt8} {pathLength : UInt8}
    {rest : List UInt8}
    (h : ((pathLength >>> 6).toNat + 1) * (pathLength &&& 0x3F).toNat ≤ rest.length) :
    (assemble sha256 raw header transport pathLength rest).PathParsed where
  hashSize_pos := Nat.succ_pos _
  length_pathBytes := by
    show (rest.take _).length = _
    rw [List.length_take]
    exact Nat.min_eq_left h
  pathChunks_eq := rfl
  invalidForMap_iff := decide_eq_true_iff

/-- A check that was passed. -/
theorem ite_error_eq_ok {ε β : Type*} {failed : Prop} [Decidable failed] {err : ε}
    {rest : Except ε β} {result : β} :
    (if failed then .error err else rest) = Except.ok result ↔ ¬failed ∧ rest = .ok result := by
  by_cases h : failed
  · simp [h]
  · simp [h]

theorem parsePacket_pathParsed (h : parsePacket sha256 raw = .ok parsed) : parsed.PathParsed := by
  obtain ⟨-, h⟩ := ite_error_eq_ok.mp h
  obtain ⟨-, h⟩ := ite_error_eq_ok.mp h
  obtain ⟨-, h⟩ := ite_error_eq_ok.mp h
  obtain ⟨henough, h⟩ := ite_error_eq_ok.mp h
  rw [← Except.ok.inj h]
  apply assemble_pathParsed
  rw [List.length_drop]
  omega

namespace ParsedPacket.PathParsed

/-- A chunk for each hop. -/
theorem length_pathChunks (h : parsed.PathParsed) : parsed.pathChunks.length = parsed.hopCount := by
  rw [h.pathChunks_eq, length_chunkPath, h.length_pathBytes, Nat.mul_div_cancel_left _ h.hashSize_pos]

theorem exists_bytes (h : parsed.PathParsed) {chunk : String} (hchunk : chunk ∈ parsed.pathChunks) :
    ∃ bytes : List UInt8, bytes.length = parsed.hashSize ∧ chunk = upperHex bytes :=
  exists_of_mem_chunkPath (h.pathChunks_eq ▸ hchunk)

end ParsedPacket.PathParsed

/-! ## Adverts -/

/-- An `Advert`. The store keeps neither the time nor the flags. -/
structure Advert where
  publicKey : String
  timestamp : UInt32 := 0
  flags : UInt8 := 0
  nodeType : Int
  role : String
  latitude : Option F64
  longitude : Option F64
  name : String
  locationSource : String
  deriving DecidableEq

end CartoLive.Meshcore
