import CartoLive.Meshcore.Adverts
import CartoLive.Meshcore.Wire

/-!
# Advert payloads and their values

`ParseAdvertPayload` reads the values of an advert back from their encoding, and
of other payloads it reads nothing that is not there and says what is wrong.
-/

/-!
## Packets and their bytes

`ParsePacket` accepts the byte strings of the wire format and no others, keeps
every byte of them, and reads back what was encoded.
-/

namespace CartoLive.Theorems.PacketWire

open CartoLive.Go CartoLive.Lib CartoLive.Meshcore

/-- Nothing of a byte string is lost in the parsed packet: its fields are those of a packet whose
encoding is the byte string, and its chunks are the text of the path, one for each hop. -/
structure Lossless (raw : List UInt8) (parsed : ParsedPacket) : Prop where
  encodes : ∃ p : WirePacket, parsed.Has p ∧ p.encode = raw
  length_pathChunks : parsed.pathChunks.length = parsed.hopCount
  join_pathChunks : String.join parsed.pathChunks = upperHex parsed.pathBytes

theorem lossless_of_layout {sha256 : List UInt8 → List UInt8} {raw : List UInt8}
    {header pathLength : UInt8} {transport path payload : List UInt8}
    (h : Layout raw header transport pathLength path payload) :
    Lossless raw (assemble sha256 raw header transport pathLength (path ++ payload)) := by
  have hparsed : (assemble sha256 raw header transport pathLength (path ++ payload)).PathParsed := by
    refine assemble_pathParsed ?_
    rw [pathBytesLen_eq, ← h.path_length, List.length_append]
    exact Nat.le_add_right _ _
  exact
    { encodes := ⟨h.packet, h.assemble_has, h.encode_packet⟩
      length_pathChunks := hparsed.length_pathChunks
      join_pathChunks := by
        rw [hparsed.pathChunks_eq]
        exact join_chunkPath hparsed.hashSize_pos
          (hparsed.length_pathBytes.trans (Nat.mul_comm _ _)) }

/-- A byte string is accepted exactly if it is of the wire format, and then without a loss; every
encoding of a packet is parsed to that packet; and no read leaves the byte string. -/
theorem parse_packet_exact (sha256 : List UInt8 → List UInt8) :
    (∀ raw, match parsePacket sha256 raw with
      | .ok parsed => WireFormat raw ∧ Lossless raw parsed
      | .error _ => ¬WireFormat raw) ∧
      (∀ p : WirePacket, ∃ parsed, parsePacket sha256 p.encode = .ok parsed ∧ parsed.Has p) ∧
      ∀ raw, parsePacketReads sha256 raw = some (parsePacket sha256 raw) := by
  refine ⟨fun raw => ?_, fun p => ?_, parsePacketReads_eq sha256⟩
  · cases hparse : parsePacket sha256 raw with
    | error message =>
      rintro ⟨header, transport, pathLength, path, payload, h⟩
      rw [h.parsePacket_eq] at hparse
      cases hparse
    | ok parsed =>
      obtain ⟨header, transport, pathLength, path, payload, h, rfl⟩ :=
        parsePacket_eq_ok_iff.mp hparse
      exact ⟨⟨header, transport, pathLength, path, payload, h⟩, lossless_of_layout h⟩
  · exact ⟨_, p.layout_encode.parsePacket_eq, p.assemble_has⟩

end CartoLive.Theorems.PacketWire

namespace CartoLive.Theorems.AdvertPayloads

open CartoLive.Go CartoLive.Lib CartoLive.Meshcore

/-! ## Total -/

/-- The offset behind the location that the flags announce. -/
def locationEnd (flags : UInt8) : Nat := if hasFlag flags 0x10 then 9 else 1

/-- The bytes of the feature fields that the flags announce. -/
def featuresLength (flags : UInt8) : Nat :=
  (if hasFlag flags 0x20 then 2 else 0) + if hasFlag flags 0x40 then 2 else 0

/-- A location that is flagged, or feature fields that are flagged, extend past the end. -/
def PastEnd (payload : List UInt8) : Prop :=
  ∃ flags, payload[100]? = some flags ∧
    (hasFlag flags 0x10 = true ∧ payload.length < 100 + locationEnd flags ∨
      (hasFlag flags 0x20 = true ∨ hasFlag flags 0x40 = true) ∧
        payload.length < 100 + (locationEnd flags + featuresLength flags))

variable {appdata : List UInt8} {offset : Nat}

/-- Four bytes that are there are a value. -/
theorem exists_uint32 (appdata : List UInt8) (offset : Nat) (h : offset + 4 ≤ appdata.length) :
    ∃ x, (slice appdata offset (offset + 4)).bind littleEndianUint32 = some x := by
  rw [slice_add h, Option.bind_some]
  refine littleEndianUint32_isSome ?_
  rw [List.length_take, List.length_drop]
  omega

theorem exists_location (advert : Advert) (h : offset + 8 ≤ appdata.length) :
    ∃ located, readLocation advert appdata offset = some (.ok (located, offset + 8)) := by
  obtain ⟨lat, hlat⟩ := exists_uint32 appdata offset (by omega)
  obtain ⟨lng, hlng⟩ := exists_uint32 appdata (offset + 4) (by omega)
  unfold readLocation
  rw [if_neg (by omega), hlat, Option.bind_some]
  dsimp only
  rw [hlng, Option.map_some]
  exact ⟨_, rfl⟩

theorem exists_name (advert : Advert) (h : offset ≤ appdata.length) :
    ∃ named, readName advert appdata offset = some named := by
  unfold readName
  rw [slice_length h, Option.map_some]
  exact ⟨_, rfl⟩

/-- The offset behind the features. -/
theorem add_featuresLength (flags : UInt8) (offset : Nat) :
    (if hasFlag flags 0x40 then (if hasFlag flags 0x20 then offset + 2 else offset) + 2
      else if hasFlag flags 0x20 then offset + 2 else offset) = offset + featuresLength flags := by
  unfold featuresLength
  split <;> split <;> rfl

theorem readFeatures_total (advert : Advert) (flags : UInt8) (appdata : List UInt8) (offset : Nat) :
    ∃ parsed, readFeatures advert flags appdata offset = some parsed ∧ parsed.ok = true ∧
      (parsed.err.isSome ↔ appdata.length < offset + featuresLength flags) := by
  unfold readFeatures
  dsimp only
  rw [add_featuresLength]
  split
  · rename_i hshort
    exact ⟨_, rfl, rfl, iff_of_true rfl hshort⟩
  rename_i hlong
  split
  · rename_i hname
    obtain ⟨named, hnamed⟩ := exists_name advert hname.2.le
    rw [hnamed, Option.map_some]
    exact ⟨_, rfl, rfl, iff_of_false (by nofun) hlong⟩
  · exact ⟨_, rfl, rfl, iff_of_false (by nofun) hlong⟩

/-- The parts are read with an error exactly if one of them is not there. -/
theorem readAppdata_total (advert : Advert) (flags : UInt8) (appdata : List UInt8)
    (hpos : 0 < appdata.length) :
    ∃ parsed, readAppdata advert flags appdata = some parsed ∧ parsed.ok = true ∧
      (parsed.err.isSome ↔
        hasFlag flags 0x10 = true ∧ appdata.length < locationEnd flags ∨
          (hasFlag flags 0x20 = true ∨ hasFlag flags 0x40 = true) ∧
            appdata.length < locationEnd flags + featuresLength flags) := by
  -- behind a location that is there, only flagged features can be missing
  have hfeatures : locationEnd flags ≤ appdata.length →
      (appdata.length < locationEnd flags + featuresLength flags ↔
        hasFlag flags 0x10 = true ∧ appdata.length < locationEnd flags ∨
          (hasFlag flags 0x20 = true ∨ hasFlag flags 0x40 = true) ∧
            appdata.length < locationEnd flags + featuresLength flags) := by
    intro hle
    constructor
    · refine fun hlt => .inr ⟨?_, hlt⟩
      by_contra hnone
      obtain ⟨h₁, h₂⟩ := not_or.mp hnone
      rw [featuresLength, if_neg h₁, if_neg h₂] at hlt
      omega
    · rintro (⟨-, hlt⟩ | ⟨-, hlt⟩)
      · omega
      · exact hlt
  unfold readAppdata
  by_cases hflag : hasFlag flags 0x10 = true
  · have hend : locationEnd flags = 1 + 8 := if_pos hflag
    rw [if_pos hflag]
    by_cases hshort : appdata.length < 1 + 8
    · rw [readLocation, if_pos hshort, Option.bind_some]
      exact ⟨_, rfl, rfl, iff_of_true rfl (.inl ⟨hflag, by omega⟩)⟩
    · obtain ⟨located, hlocated⟩ :=
        exists_location advert (show 1 + 8 ≤ appdata.length by omega)
      rw [hlocated, Option.bind_some, ← hend]
      obtain ⟨parsed, hparsed, hok, herr⟩ := readFeatures_total located flags appdata (locationEnd flags)
      exact ⟨parsed, hparsed, hok, herr.trans (hfeatures (by omega))⟩
  · have hend : locationEnd flags = 1 := if_neg hflag
    rw [if_neg hflag, Option.bind_some, ← hend]
    obtain ⟨parsed, hparsed, hok, herr⟩ := readFeatures_total advert flags appdata (locationEnd flags)
    exact ⟨parsed, hparsed, hok, herr.trans (hfeatures (by omega))⟩

/-- What every payload is read as. -/
theorem parse_total (payload : List UInt8) :
    ∃ parsed, parseAdvertPayload payload = some parsed ∧
      (parsed.ok = false ↔ payload.length < 100) ∧ (parsed.err.isSome ↔ PastEnd payload) := by
  unfold parseAdvertPayload
  dsimp only
  split
  · rename_i hshort
    refine ⟨_, rfl, iff_of_true rfl hshort, iff_of_false (by nofun) ?_⟩
    rintro ⟨flags, hflags, -⟩
    obtain ⟨hlen, -⟩ := List.getElem?_eq_some_iff.mp hflags
    omega
  rename_i hlong
  obtain ⟨timestamp, htimestamp⟩ := exists_uint32 payload 32 (by omega)
  rw [slice_eq_some (by omega) (by omega), Option.bind_some, htimestamp, Option.bind_some,
    slice_length (by omega), Option.bind_some, List.length_drop]
  split
  · rename_i hnone
    refine ⟨_, rfl, iff_of_false (by nofun) (by omega), iff_of_false (by nofun) ?_⟩
    rintro ⟨flags, hflags, -⟩
    obtain ⟨hlen, -⟩ := List.getElem?_eq_some_iff.mp hflags
    omega
  · rename_i hsome
    have hflags : (payload.drop 100)[0]? = some (payload.getD 100 0) := by
      rw [List.getElem?_drop, getElem?_getD payload 100 0 (by omega)]
    rw [hflags, Option.bind_some]
    obtain ⟨parsed, hparsed, hok, herr⟩ := readAppdata_total _ (payload.getD 100 0)
      (payload.drop 100) (by rw [List.length_drop]; omega)
    refine ⟨parsed, hparsed, iff_of_false (by rw [hok]; nofun) (by omega), herr.trans ?_⟩
    rw [List.length_drop, Nat.sub_lt_iff_lt_add' (by omega), Nat.sub_lt_iff_lt_add' (by omega)]
    unfold PastEnd
    rw [getElem?_getD payload 100 0 (by omega)]
    simp only [Option.some.injEq, exists_eq_left']

/-! ## Round trip -/

/-- The NULs behind a name are trimmed, and nothing else is. -/
theorem trimNUL_encodeUTF8 (name : PlainName) (nuls : Nat) :
    trimNUL (encodeUTF8 name.text ++ List.replicate nuls 0) = encodeUTF8 name.text := by
  have hlast : ∀ b ∈ encodeUTF8 name.text, b ≠ 0 := by
    intro b hb
    obtain ⟨c, hc, hbc⟩ := List.mem_flatMap.mp hb
    exact ne_zero_of_mem_utf8EncodeChar (name.no_nul c hc) hbc
  unfold trimNUL
  rw [List.rdropWhile, List.reverse_append, List.dropWhile_append_of_pos, ← List.rdropWhile,
    List.rdropWhile_eq_self_iff]
  · intro hne
    simpa using hlast _ (List.getLast_mem hne)
  · intro b hb
    rw [List.mem_reverse] at hb
    exact decide_eq_true (List.eq_of_mem_replicate hb)

theorem readName_encoded (advert : Advert) (before : List UInt8) (name : PlainName) (nuls : Nat) :
    readName advert (before ++ (encodeUTF8 name.text ++ List.replicate nuls 0)) before.length =
      some { advert with name := name.text } := by
  unfold readName
  rw [slice_length (by rw [List.length_append]; omega), List.drop_left, Option.map_some,
    trimNUL_encodeUTF8, decodeUTF8_encodeUTF8]
  dsimp only
  rw [name.trimmed]

theorem encodeUTF8_eq_nil {s : String} (h : encodeUTF8 s = []) : s = "" := by
  have hempty := decodeUTF8_encodeUTF8 s
  rw [h] at hempty
  exact Option.some.inj (hempty.symm.trans (decodeUTF8_encodeUTF8 ""))

theorem length_encodeFeature (feature : Option (UInt8 × UInt8)) :
    (encodeFeature feature).length = if feature.isSome then 2 else 0 := by
  cases feature <;> rfl

/-- The features are skipped and the name is read. -/
theorem readFeatures_encoded (f : AdvertFields) (advert : Advert) (hname : advert.name = "")
    (before : List UInt8) (nuls : Nat) :
    readFeatures advert f.flags (before ++ (encodeFeature f.feature1 ++ (encodeFeature f.feature2 ++
        (encodeName f.name ++ List.replicate nuls 0)))) before.length =
      some { advert := { advert with name := (f.name.map PlainName.text).getD "" }, ok := true
             err := none } := by
  obtain ⟨-, hfeature1, hfeature2, hflag⟩ := hasFlag_flagsByte f.nodeType f.location.isSome
    f.feature1.isSome f.feature2.isSome f.name.isSome
  change hasFlag f.flags 0x20 = _ at hfeature1
  change hasFlag f.flags 0x40 = _ at hfeature2
  change hasFlag f.flags 0x80 = _ at hflag
  have hoffset : before.length + featuresLength f.flags =
      (before ++ encodeFeature f.feature1 ++ encodeFeature f.feature2).length := by
    rw [featuresLength, hfeature1, hfeature2, ← length_encodeFeature, ← length_encodeFeature,
      List.length_append, List.length_append, Nat.add_assoc]
  unfold readFeatures
  dsimp only
  rw [add_featuresLength, hoffset, ← List.append_assoc, ← List.append_assoc, hflag]
  generalize before ++ encodeFeature f.feature1 ++ encodeFeature f.feature2 = front
  rw [if_neg (by rw [List.length_append]; omega)]
  cases f.name with
  | none => rw [if_neg (by nofun), Option.map_none, Option.getD_none, ← hname]
  | some name =>
    rw [Option.map_some, Option.getD_some, encodeName]
    by_cases hlen : front.length <
        (front ++ (encodeUTF8 name.text ++ List.replicate nuls 0)).length
    · rw [if_pos ⟨rfl, hlen⟩, readName_encoded, Option.map_some]
    · -- an empty name without NULs is not read
      rw [List.length_append, List.length_append] at hlen
      have hempty : name.text = "" :=
        encodeUTF8_eq_nil (List.length_eq_zero_iff.mp (by omega))
      rw [if_neg (by rw [List.length_append, List.length_append]; omega), hempty, ← hname]

/-- A location in range is read. -/
theorem readLocation_encoded (advert : Advert) (flags : UInt8) (location : MicroLocation)
    (rest : List UInt8) :
    readLocation advert (flags :: (encodeLocation (some location) ++ rest)) 1 =
      some (.ok
        ({ advert with
            latitude := some (degrees location.lat)
            longitude := some (degrees location.lng)
            locationSource := "advert" }, 9)) := by
  have hlat := degrees_range location.lat (n := 90) (by decide)
    (by have := location.lat_range; omega) (by have := location.lat_range; omega)
  have hlng := degrees_range location.lng (n := 180) (by decide)
    (by have := location.lng_range; omega) (by have := location.lng_range; omega)
  have hin : ((F64.fin (-90)).le (degrees location.lat) && (degrees location.lat).le (.fin 90) &&
      (F64.fin (-180)).le (degrees location.lng) && (degrees location.lng).le (.fin 180)) = true := by
    have h₁ : (F64.fin (-90)).le (degrees location.lat) = true := hlat.1
    have h₂ : (degrees location.lat).le (.fin 90) = true := hlat.2
    have h₃ : (F64.fin (-180)).le (degrees location.lng) = true := hlng.1
    have h₄ : (degrees location.lng).le (.fin 180) = true := hlng.2
    rw [h₁, h₂, h₃, h₄]
    rfl
  have hfirst : slice (flags :: (littleEndianBytes location.lat.toUInt32 ++
      (littleEndianBytes location.lng.toUInt32 ++ rest))) 1 (1 + 4) =
        some (littleEndianBytes location.lat.toUInt32) :=
    slice_append [flags] (littleEndianBytes location.lat.toUInt32)
      (littleEndianBytes location.lng.toUInt32 ++ rest) rfl rfl
  have hsecond : slice (flags :: (littleEndianBytes location.lat.toUInt32 ++
      (littleEndianBytes location.lng.toUInt32 ++ rest))) (1 + 4) (1 + 4 + 4) =
        some (littleEndianBytes location.lng.toUInt32) :=
    slice_append (flags :: littleEndianBytes location.lat.toUInt32)
      (littleEndianBytes location.lng.toUInt32) rest rfl rfl
  rw [encodeLocation, List.append_assoc]
  unfold readLocation
  rw [if_neg (by simp only [List.length_cons, List.length_append, length_littleEndianBytes]; omega)]
  dsimp only
  rw [hfirst, hsecond, Option.bind_some, littleEndianUint32_bytes, Option.bind_some,
    Option.bind_some, littleEndianUint32_bytes, Option.map_some, Int32.toInt32_toUInt32,
    Int32.toInt32_toUInt32, Advert.withLocation, if_pos hin]

theorem readAppdata_encoded (f : AdvertFields) (advert : Advert) (hname : advert.name = "")
    (hlat : advert.latitude = none) (hlng : advert.longitude = none)
    (hsource : advert.locationSource = "") (nuls : Nat) :
    readAppdata advert f.flags (f.appdata nuls) =
      some { advert := { advert with
               latitude := f.location.map fun location => degrees location.lat
               longitude := f.location.map fun location => degrees location.lng
               name := (f.name.map PlainName.text).getD ""
               locationSource := if f.location.isSome then "advert" else "" }
             ok := true, err := none } := by
  obtain ⟨hflag, -⟩ := hasFlag_flagsByte f.nodeType f.location.isSome
    f.feature1.isSome f.feature2.isSome f.name.isSome
  change hasFlag f.flags 0x10 = _ at hflag
  unfold readAppdata AdvertFields.appdata
  rw [hflag]
  cases hlocation : f.location with
  | none =>
    have hfeatures := readFeatures_encoded f advert hname [f.flags] nuls
    rw [if_neg (by nofun), Option.bind_some]
    refine hfeatures.trans ?_
    rw [Option.map_none, Option.map_none, if_neg (by nofun), hlat, hlng, hsource]
  | some location =>
    rw [if_pos Option.isSome_some, readLocation_encoded, Option.bind_some]
    exact readFeatures_encoded f
      { advert with
        latitude := some (degrees location.lat)
        longitude := some (degrees location.lng)
        locationSource := "advert" }
      hname (f.flags :: encodeLocation (some location)) nuls

/-- The values of an advert are read back from their encoding. -/
theorem parse_encoded (f : AdvertFields) (nuls : Nat) :
    parseAdvertPayload (f.encode nuls) = some { advert := f.advert, ok := true, err := none } := by
  have hkey := f.length_publicKey
  have hsignature := f.length_signature
  have hlength : (f.encode nuls).length = 100 + (f.appdata nuls).length := by
    simp only [AdvertFields.encode, List.length_append, length_littleEndianBytes]
    omega
  have hpos : 0 < (f.appdata nuls).length := Nat.succ_pos _
  have hdrop : (f.encode nuls).drop 100 = f.appdata nuls := by
    have hfront : (f.publicKey ++ (littleEndianBytes f.timestamp ++ f.signature)).length = 100 := by
      simp only [List.length_append, length_littleEndianBytes]
      omega
    rw [AdvertFields.encode, ← List.append_assoc (littleEndianBytes f.timestamp), ← List.append_assoc,
      ← hfront, List.drop_left]
  unfold parseAdvertPayload
  dsimp only
  rw [if_neg (by omega), slice_length (by omega), hdrop]
  have hfirst : slice (f.encode nuls) 0 32 = some f.publicKey :=
    slice_append [] f.publicKey _ rfl (by rw [hkey]; rfl)
  have hsecond : slice (f.encode nuls) 32 36 = some (littleEndianBytes f.timestamp) :=
    slice_append f.publicKey (littleEndianBytes f.timestamp) _ hkey.symm (by rw [hkey]; rfl)
  rw [hfirst, hsecond, Option.bind_some, Option.bind_some, littleEndianUint32_bytes, Option.bind_some,
    Option.bind_some, if_neg (by omega)]
  have hflags : (f.appdata nuls)[0]? = some f.flags := rfl
  have htype : (f.flags &&& 0x0F).toNat = f.nodeType := nodeType_flagsByte _ _ _ _ _
  rw [hflags, Option.bind_some, readAppdata_encoded f _ rfl rfl rfl rfl, htype]
  rfl

/-- An advert is read back from its encoding with all of its values, the coordinates to the
millionth of a degree; and for every payload, every read is inside of what is read from, it is no
advert exactly if it is too short, and it is in error exactly if flagged parts are not there. -/
theorem advert_payload_exact :
    (∀ (f : AdvertFields) nuls,
      parseAdvertPayload (f.encode nuls) = some { advert := f.advert, ok := true, err := none }) ∧
      (∀ raw : Int32, ∃ value, degrees raw = .fin value ∧ |value * 1000000 - raw.toInt| < 1 / 2) ∧
      ∀ payload, ∃ parsed, parseAdvertPayload payload = some parsed ∧
        (parsed.ok = false ↔ payload.length < 100) ∧ (parsed.err.isSome ↔ PastEnd payload) :=
  ⟨parse_encoded, abs_degrees_sub_lt, parse_total⟩

end CartoLive.Theorems.AdvertPayloads
