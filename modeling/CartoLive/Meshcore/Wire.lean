import CartoLive.Lib.Reads
import CartoLive.Meshcore.Decode
import Mathlib.Algebra.Group.Nat.Defs

/-!
# The wire format of packets

The layout that `ParsePacket` reads, as a property of byte strings (`WireFormat`),
and the fields of a packet with their ranges (`WirePacket`), which it is the
encoding of. `parsePacketReads` is `ParsePacket` with a bounds check at every read.
-/

namespace CartoLive.Meshcore

open CartoLive.Go CartoLive.Lib

/-! ## Bit fields -/

theorem toNat_routeBits (header : UInt8) : (header &&& 0x03).toNat = header.toNat % 4 :=
  toNat_and_mask header 0x03 2 rfl

theorem toNat_payloadBits (header : UInt8) :
    ((header >>> 2) &&& 0x0F).toNat = header.toNat / 4 % 16 := by
  rw [toNat_and_mask (header >>> 2) 0x0F 4 rfl, UInt8.toNat_shiftRight, Nat.shiftRight_eq_div_pow]
  rfl

theorem toNat_versionBits (header : UInt8) :
    ((header >>> 6) &&& 0x03).toNat = header.toNat / 64 := by
  have hlt := header.toNat_lt
  rw [toNat_and_mask (header >>> 6) 0x03 2 rfl, UInt8.toNat_shiftRight, Nat.shiftRight_eq_div_pow]
  show header.toNat / 64 % 4 = header.toNat / 64
  omega

theorem toNat_sizeBits (pathLength : UInt8) :
    (pathLength >>> 6).toNat = pathLength.toNat / 64 := by
  rw [UInt8.toNat_shiftRight, Nat.shiftRight_eq_div_pow]
  rfl

theorem toNat_hopBits (pathLength : UInt8) :
    (pathLength &&& 0x3F).toNat = pathLength.toNat % 64 :=
  toNat_and_mask pathLength 0x3F 6 rfl

/-! ## The layout -/

/-- The transport bytes behind a header with a route type. -/
def transportLength (routeType : Nat) : Nat := if hasTransportCodes routeType then 4 else 0

/-- The path bytes behind a path length: the top two bits and one more give the size of a hash,
the low six bits the number of hops. -/
def pathBytesLength (pathLength : UInt8) : Nat := (pathLength.toNat / 64 + 1) * (pathLength.toNat % 64)

/-- A header, the transport bytes of its route type, a path length, as many path bytes as that
says, and a payload. -/
structure Layout (raw : List UInt8) (header : UInt8) (transport : List UInt8) (pathLength : UInt8)
    (path payload : List UInt8) : Prop where
  bytes : raw = header :: (transport ++ pathLength :: (path ++ payload))
  transport_length : transport.length = transportLength (header.toNat % 4)
  path_length : path.length = pathBytesLength pathLength

/-- The byte strings that are packets. -/
def WireFormat (raw : List UInt8) : Prop :=
  ∃ header transport pathLength path payload, Layout raw header transport pathLength path payload

variable {sha256 : List UInt8 → List UInt8} {raw : List UInt8} {parsed : ParsedPacket}
  {header pathLength : UInt8} {transport path payload : List UInt8}

namespace Layout

theorem length (h : Layout raw header transport pathLength path payload) :
    raw.length = transport.length + 2 + path.length + payload.length := by
  rw [h.bytes]
  simp only [List.length_cons, List.length_append]
  omega

theorem coded (h : Layout raw header transport pathLength path payload) :
    (if hasTransportCodes (header &&& 0x03).toNat then 5 else 1) = transport.length + 1 := by
  rw [h.transport_length, transportLength, toNat_routeBits]
  split <;> rfl

theorem headD (h : Layout raw header transport pathLength path payload) : raw.headD 0 = header := by
  rw [h.bytes, List.headD_cons]

theorem getD (h : Layout raw header transport pathLength path payload) :
    raw.getD (transport.length + 1) 0 = pathLength := by
  rw [h.bytes, List.getD_cons_succ, List.getD_eq_getElem?_getD,
    List.getElem?_append_right (Nat.le_refl _), Nat.sub_self, List.getElem?_cons_zero,
    Option.getD_some]

theorem drop (h : Layout raw header transport pathLength path payload) :
    raw.drop (transport.length + 1 + 1) = path ++ payload := by
  rw [h.bytes, List.drop_succ_cons, ← List.drop_drop, List.drop_left, List.drop_one, List.tail_cons]

theorem transport_eq (h : Layout raw header transport pathLength path payload) :
    (raw.take (transport.length + 1)).drop 1 = transport := by
  rw [h.bytes, List.take_succ_cons, List.drop_one, List.tail_cons, List.take_left]

end Layout

theorem pathBytesLen_eq (pathLength : UInt8) :
    ((pathLength >>> 6).toNat + 1) * (pathLength &&& 0x3F).toNat = pathBytesLength pathLength := by
  rw [toNat_sizeBits, toNat_hopBits, pathBytesLength]

/-- A byte string of the layout is parsed. -/
theorem Layout.parsePacket_eq (h : Layout raw header transport pathLength path payload) :
    parsePacket sha256 raw =
      .ok (assemble sha256 raw header transport pathLength (path ++ payload)) := by
  have hlength := h.length
  have hpath := h.path_length
  unfold parsePacket
  rw [if_neg (by omega)]
  dsimp only
  rw [h.headD, h.coded]
  have hcoded : ¬(hasTransportCodes (header &&& 0x03).toNat = true ∧ raw.length < 1 + 4 + 1) := by
    rintro ⟨hcodes, hshort⟩
    have hfour := h.coded
    rw [if_pos hcodes] at hfour
    omega
  rw [if_neg hcoded, if_neg (by omega), h.getD, pathBytesLen_eq, if_neg (by omega), h.drop,
    h.transport_eq]

/-- A byte string that is parsed has the layout. -/
theorem exists_layout (h : parsePacket sha256 raw = .ok parsed) :
    ∃ header transport pathLength path payload, Layout raw header transport pathLength path payload := by
  obtain ⟨hshort, h⟩ := ite_error_eq_ok.mp h
  obtain ⟨-, h⟩ := ite_error_eq_ok.mp h
  obtain ⟨hoffset, h⟩ := ite_error_eq_ok.mp h
  obtain ⟨henough, -⟩ := ite_error_eq_ok.mp h
  obtain ⟨header, rest, rfl⟩ := List.exists_cons_of_length_pos (l := raw) (by omega)
  rw [List.headD_cons] at hoffset henough
  rw [pathBytesLen_eq] at henough
  have hsize : (if hasTransportCodes (header &&& 0x03).toNat then 5 else 1) =
      transportLength (header.toNat % 4) + 1 := by
    rw [transportLength, toNat_routeBits]
    split <;> rfl
  rw [hsize] at hoffset henough
  generalize hsizes : transportLength (header.toNat % 4) = size at hoffset henough
  rw [List.length_cons] at hoffset henough
  -- what follows the header splits behind the transport bytes and behind the path
  have hpathLength : rest.drop size = rest.getD size 0 :: rest.drop (size + 1) := by
    rw [List.getD_eq_getElem?_getD, List.getElem?_eq_getElem (by omega), Option.getD_some]
    exact List.drop_eq_getElem_cons (by omega)
  rw [List.getD_cons_succ] at henough
  refine ⟨header, rest.take size, rest.getD size 0,
    (rest.drop (size + 1)).take (pathBytesLength (rest.getD size 0)),
    (rest.drop (size + 1)).drop (pathBytesLength (rest.getD size 0)), ?_, ?_, ?_⟩
  · rw [List.take_append_drop, ← hpathLength, List.take_append_drop]
  · rw [List.length_take, hsizes, Nat.min_eq_left (by omega)]
  · rw [List.length_take, List.length_drop, Nat.min_eq_left (by omega)]

/-- `ParsePacket` accepts the byte strings of the layout, and says what their parts are. -/
theorem parsePacket_eq_ok_iff :
    parsePacket sha256 raw = .ok parsed ↔
      ∃ header transport pathLength path payload,
        Layout raw header transport pathLength path payload ∧
          parsed = assemble sha256 raw header transport pathLength (path ++ payload) := by
  constructor
  · intro h
    obtain ⟨header, transport, pathLength, path, payload, hlayout⟩ := exists_layout h
    rw [hlayout.parsePacket_eq] at h
    exact ⟨header, transport, pathLength, path, payload, hlayout, (Except.ok.inj h).symm⟩
  · rintro ⟨header, transport, pathLength, path, payload, hlayout, rfl⟩
    exact hlayout.parsePacket_eq

/-! ## Encoding -/

/-- The fields of a packet, each in its range. -/
structure WirePacket where
  routeType : Fin 4
  payloadType : Fin 16
  payloadVersion : Fin 4
  transportCodes : List UInt8
  hashSize : Nat
  hopCount : Fin 64
  pathBytes : List UInt8
  payload : List UInt8
  transport_length : transportCodes.length = transportLength routeType
  hashSize_pos : 0 < hashSize
  hashSize_le : hashSize ≤ 4
  path_length : pathBytes.length = hashSize * hopCount

namespace WirePacket

/-- The byte of the three header fields. -/
def headerByte (p : WirePacket) : UInt8 :=
  UInt8.ofNat (p.routeType + 4 * p.payloadType + 64 * p.payloadVersion)

/-- The byte of the hash size and the hop count. -/
def pathByte (p : WirePacket) : UInt8 := UInt8.ofNat (64 * (p.hashSize - 1) + p.hopCount)

def encode (p : WirePacket) : List UInt8 :=
  p.headerByte :: (p.transportCodes ++ p.pathByte :: (p.pathBytes ++ p.payload))

theorem toNat_headerByte (p : WirePacket) :
    p.headerByte.toNat = p.routeType + 4 * p.payloadType + 64 * p.payloadVersion := by
  have h₁ := p.routeType.isLt
  have h₂ := p.payloadType.isLt
  have h₃ := p.payloadVersion.isLt
  rw [headerByte, UInt8.toNat_ofNat']
  omega

theorem toNat_pathByte (p : WirePacket) :
    p.pathByte.toNat = 64 * (p.hashSize - 1) + p.hopCount := by
  have h₁ := p.hashSize_le
  have h₂ := p.hopCount.isLt
  rw [pathByte, UInt8.toNat_ofNat']
  omega

theorem hashSize_eq (p : WirePacket) : p.pathByte.toNat / 64 + 1 = p.hashSize := by
  have h₁ := p.hashSize_pos
  have h₂ := p.hopCount.isLt
  rw [toNat_pathByte]
  omega

theorem hopCount_eq (p : WirePacket) : p.pathByte.toNat % 64 = p.hopCount := by
  have h := p.hopCount.isLt
  rw [toNat_pathByte]
  omega

/-- An encoding has the layout. -/
theorem layout_encode (p : WirePacket) :
    Layout p.encode p.headerByte p.transportCodes p.pathByte p.pathBytes p.payload where
  bytes := rfl
  transport_length := by
    have h := p.routeType.isLt
    rw [p.transport_length, toNat_headerByte]
    congr 1
    omega
  path_length := by rw [p.path_length, pathBytesLength, hashSize_eq, hopCount_eq]

end WirePacket

/-- The fields of the packet that a byte string of the layout is. -/
def Layout.packet (h : Layout raw header transport pathLength path payload) : WirePacket where
  routeType := ⟨header.toNat % 4, by omega⟩
  payloadType := ⟨header.toNat / 4 % 16, by omega⟩
  payloadVersion := ⟨header.toNat / 64, by have := header.toNat_lt; omega⟩
  transportCodes := transport
  hashSize := pathLength.toNat / 64 + 1
  hopCount := ⟨pathLength.toNat % 64, by omega⟩
  pathBytes := path
  payload := payload
  transport_length := h.transport_length
  hashSize_pos := Nat.succ_pos _
  hashSize_le := by have := pathLength.toNat_lt; omega
  path_length := h.path_length

/-- Its encoding is the byte string. -/
theorem Layout.encode_packet (h : Layout raw header transport pathLength path payload) :
    h.packet.encode = raw := by
  have hheader : h.packet.headerByte = header := by
    apply UInt8.toNat_inj.mp
    rw [WirePacket.toNat_headerByte]
    show header.toNat % 4 + 4 * (header.toNat / 4 % 16) + 64 * (header.toNat / 64) = header.toNat
    omega
  have hpathLength : h.packet.pathByte = pathLength := by
    apply UInt8.toNat_inj.mp
    rw [WirePacket.toNat_pathByte]
    show 64 * (pathLength.toNat / 64 + 1 - 1) + pathLength.toNat % 64 = pathLength.toNat
    omega
  rw [WirePacket.encode, hheader, hpathLength]
  exact h.bytes.symm

/-- The byte strings of the format are the encodings. -/
theorem wireFormat_iff : WireFormat raw ↔ ∃ p : WirePacket, p.encode = raw := by
  constructor
  · rintro ⟨header, transport, pathLength, path, payload, h⟩
    exact ⟨h.packet, h.encode_packet⟩
  · rintro ⟨p, rfl⟩
    exact ⟨_, _, _, _, _, p.layout_encode⟩

/-! ## The fields of a parsed packet -/

/-- A parsed packet has the fields of a packet. -/
structure ParsedPacket.Has (parsed : ParsedPacket) (p : WirePacket) : Prop where
  routeType : parsed.routeType = p.routeType
  payloadType : parsed.payloadType = p.payloadType
  payloadVersion : parsed.payloadVersion = p.payloadVersion
  transportCodes : parsed.transportCodes = p.transportCodes
  hashSize : parsed.hashSize = p.hashSize
  hopCount : parsed.hopCount = p.hopCount
  pathBytes : parsed.pathBytes = p.pathBytes
  payload : parsed.payload = p.payload

theorem Layout.assemble_has (h : Layout raw header transport pathLength path payload) :
    (assemble sha256 raw header transport pathLength (path ++ payload)).Has h.packet where
  routeType := toNat_routeBits header
  payloadType := toNat_payloadBits header
  payloadVersion := toNat_versionBits header
  transportCodes := rfl
  hashSize := congrArg (· + 1) (toNat_sizeBits pathLength)
  hopCount := toNat_hopBits pathLength
  pathBytes := by
    show (path ++ payload).take _ = path
    rw [pathBytesLen_eq, ← h.path_length, List.take_left]
  payload := by
    show (path ++ payload).drop _ = payload
    rw [pathBytesLen_eq, ← h.path_length, List.drop_left]

/-- What is parsed of an encoding has the fields that were encoded. -/
theorem WirePacket.assemble_has (p : WirePacket) :
    (assemble sha256 p.encode p.headerByte p.transportCodes p.pathByte
      (p.pathBytes ++ p.payload)).Has p where
  routeType := by
    have h := p.routeType.isLt
    refine (toNat_routeBits p.headerByte).trans ?_
    rw [p.toNat_headerByte]
    omega
  payloadType := by
    have h₁ := p.routeType.isLt
    have h₂ := p.payloadType.isLt
    refine (toNat_payloadBits p.headerByte).trans ?_
    rw [p.toNat_headerByte]
    omega
  payloadVersion := by
    have h₁ := p.routeType.isLt
    have h₂ := p.payloadType.isLt
    refine (toNat_versionBits p.headerByte).trans ?_
    rw [p.toNat_headerByte]
    omega
  transportCodes := rfl
  hashSize := (congrArg (· + 1) (toNat_sizeBits p.pathByte)).trans p.hashSize_eq
  hopCount := (toNat_hopBits p.pathByte).trans p.hopCount_eq
  pathBytes := by
    show (p.pathBytes ++ p.payload).take _ = p.pathBytes
    rw [pathBytesLen_eq, ← p.layout_encode.path_length, List.take_left]
  payload := by
    show (p.pathBytes ++ p.payload).drop _ = p.payload
    rw [pathBytesLen_eq, ← p.layout_encode.path_length, List.drop_left]

/-! ## The path as text -/

theorem toList_upperHex (bytes : List UInt8) :
    (upperHex bytes).toList = bytes.flatMap fun b => (hexByte b).map Char.toUpper := by
  rw [upperHex, toUpper, String.toList_ofList, encodeHex, String.toList_ofList, List.map_flatMap]

/-- The chunks of a whole path make up its text. -/
theorem join_chunkPath {path : List UInt8} {hashSize turns : Nat} (hpos : 0 < hashSize)
    (hlength : path.length = turns * hashSize) :
    String.join (chunkPath path hashSize) = upperHex path := by
  rw [← String.toList_inj, String.toList_join, toList_upperHex, chunkPath, hlength,
    Nat.mul_div_cancel _ hpos, List.flatMap_map]
  simp only [toList_upperHex]
  rw [← List.flatMap_assoc, flatMap_slices, ← hlength, List.take_length]

/-! ## Reads -/

/-- `chunkPath`, with the bounds of its slices checked. -/
def chunkPathReads (path : List UInt8) (hashSize : Nat) : Option (List String) :=
  (List.range (path.length / hashSize)).mapM fun turn =>
    (slice path (turn * hashSize) (turn * hashSize + hashSize)).map upperHex

/-- `ParsePacket`, with the bounds of its reads checked. -/
def parsePacketReads (sha256 : List UInt8 → List UInt8) (raw : List UInt8) :
    Option (Except String ParsedPacket) :=
  if raw.length < 2 then
    some (.error ("packet too short: " ++ toString raw.length ++ " bytes"))
  else
    raw[0]?.bind fun header =>
      let routeType := (header &&& 0x03).toNat
      let payloadType := ((header >>> 2) &&& 0x0F).toNat
      let payloadVersion := ((header >>> 6) &&& 0x03).toNat
      if hasTransportCodes routeType ∧ raw.length < 1 + 4 + 1 then
        some (.error "packet too short for transport codes")
      else
        (if hasTransportCodes routeType then slice raw 1 (1 + 4) else some []).bind fun transport =>
          let offset := if hasTransportCodes routeType then 5 else 1
          if raw.length < offset + 1 then some (.error "packet missing path length")
          else
            raw[offset]?.bind fun pathLength =>
              let offset := offset + 1
              let hashSize := (pathLength >>> 6).toNat + 1
              let hopCount := (pathLength &&& 0x3F).toNat
              let pathBytesLen := hashSize * hopCount
              if raw.length < offset + pathBytesLen then
                some (.error ("packet path too short: need " ++ toString pathBytesLen ++
                  " bytes, have " ++ toString (raw.length - offset)))
              else
                (slice raw offset (offset + pathBytesLen)).bind fun pathBytes =>
                  (chunkPathReads pathBytes hashSize).bind fun pathChunks =>
                    (slice raw (offset + pathBytesLen) raw.length).map fun payload =>
                      let invalid := decide (hashSize = 4 ∧ payloadType ≠ payloadTrace)
                      .ok
                        { packetHash := packetHash sha256 raw
                          rawHex := upperHex raw
                          routeType
                          routeTypeName := routeTypeName routeType
                          payloadType
                          payloadTypeName := payloadTypeName payloadType
                          payloadVersion
                          transportCodes := transport
                          hashSize
                          hopCount
                          pathBytes
                          pathChunks
                          payload
                          invalidForMap := invalid
                          invalidReason := if invalid then "reserved_4_byte_path_non_trace" else "" }

/-- The slices of a path are inside of it. -/
theorem chunkPathReads_eq (path : List UInt8) (hashSize : Nat) :
    chunkPathReads path hashSize = some (chunkPath path hashSize) := by
  refine mapM_range_eq_some fun turn hturn => ?_
  have hnext : (turn + 1) * hashSize ≤ path.length :=
    (Nat.mul_le_mul_right _ hturn).trans (Nat.div_mul_le_self _ _)
  rw [slice_add (by rwa [Nat.succ_mul] at hnext), Option.map_some]

/-- `ParsePacket` reads only what is there. -/
theorem parsePacketReads_eq (sha256 : List UInt8 → List UInt8) (raw : List UInt8) :
    parsePacketReads sha256 raw = some (parsePacket sha256 raw) := by
  unfold parsePacketReads parsePacket
  split
  · rfl
  rename_i hlong
  rw [getElem?_getD raw 0 0 (by omega), Option.bind_some]
  have hhead : raw.getD 0 0 = raw.headD 0 := by cases raw <;> rfl
  rw [hhead]
  dsimp only
  generalize hcoded : hasTransportCodes (raw.headD 0 &&& 0x03).toNat = coded
  split
  · rfl
  rename_i hcodes
  -- the transport codes are there where the header says so
  have htransport : (if coded = true then slice raw 1 (1 + 4) else some []) =
      some ((raw.take (if coded = true then 5 else 1)).drop 1) := by
    cases coded with
    | true =>
      have hlen : ¬raw.length < 1 + 4 + 1 := fun hshort => hcodes ⟨rfl, hshort⟩
      rw [if_pos rfl, if_pos rfl]
      exact slice_eq_some (by omega) (by omega)
    | false =>
      rw [if_neg Bool.false_ne_true, if_neg Bool.false_ne_true]
      cases raw <;> rfl
  rw [htransport, Option.bind_some]
  generalize (if coded = true then 5 else 1) = offset
  split
  · rfl
  rename_i hoffset
  rw [getElem?_getD raw offset 0 (by omega), Option.bind_some]
  split
  · rfl
  rename_i henough
  rw [slice_add (by omega), Option.bind_some, chunkPathReads_eq, Option.bind_some,
    slice_length (by omega), Option.map_some, assemble, List.drop_drop]

end CartoLive.Meshcore
