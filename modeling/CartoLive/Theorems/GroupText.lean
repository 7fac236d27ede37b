import CartoLive.Live.DisplayText
import CartoLive.Meshcore.GroupText

/-!
# Group text read back

`DecodeGroupTextMessage` reads a message of a channel back from its payload, for
every place of the key in the list of secrets, and reads nothing with a list in
which no key passes the checks. Each secret is followed to the key that it stands
for (`Yields`), the ciphertext block by block, and the plaintext to its sender.

## Main results

- `group_text_read_back`: messages are read back, payloads of other keys are
  empty messages, and every read is inside of what is read from.
-/

namespace CartoLive.Theorems.GroupText

open CartoLive.Go CartoLive.Lib CartoLive.Live CartoLive.Meshcore

/-! ## Sanitised text -/

theorem sanitizeChar_of_nul {c : Char} (hc : c.toNat = 0) : sanitizeChar c = none := by
  rw [show c = Char.ofNat 0 by rw [← hc, Char.ofNat_toNat]]
  decide

/-- A character that is kept is kept again, and a blank that is kept comes from a blank. -/
theorem sanitizeChar_some {c d : Char} (h : sanitizeChar c = some d) :
    sanitizeChar d = some d ∧ (isSpace c = true → isSpace d = true) := by
  unfold sanitizeChar at h
  split at h
  · cases h
    exact ⟨by decide, fun _ => by decide⟩
  · split at h
    · cases h
    · rename_i hline hcontrol
      cases h
      exact ⟨by rw [sanitizeChar, if_neg hline, if_neg hcontrol], id⟩

theorem toList_sanitizeTextPayload (value : String) :
    (sanitizeTextPayload value).toList = squeeze .start (value.toList.filterMap sanitizeChar) :=
  toList_intercalate_fields (fun _ _ h => (sanitizeChar_some h).2) (fun _ => sanitizeChar_of_nul)
    value

/-- A text that sanitising leaves as it is. -/
structure Sanitized (l : List Char) : Prop where
  kept : ∀ c ∈ l, sanitizeChar c = some c
  blank : ∀ c ∈ l, isSpace c = true → c = ' '
  tidy : Tidy l

theorem sanitized_of_eq {value : String} (h : sanitizeTextPayload value = value) :
    Sanitized value.toList := by
  have hlist := toList_sanitizeTextPayload value
  rw [h] at hlist
  have hmem : ∀ c ∈ value.toList, c = ' ' ∨
      c ∈ value.toList.filterMap sanitizeChar ∧ isSpace c = false := fun c hc =>
    mem_squeeze (hlist ▸ hc)
  refine ⟨fun c hc => ?_, fun c hc hspace => ?_, ?_⟩
  · rcases hmem c hc with rfl | ⟨hkept, -⟩
    · decide
    · obtain ⟨d, -, hd⟩ := List.mem_filterMap.mp hkept
      exact (sanitizeChar_some hd).1
  · rcases hmem c hc with rfl | ⟨-, hword⟩
    · rfl
    · exact absurd hspace (by rw [hword]; nofun)
  · rw [hlist]
    exact tidy_squeeze _

theorem Sanitized.eq {value : String} (h : Sanitized value.toList) :
    sanitizeTextPayload value = value := by
  refine String.toList_inj.mp ?_
  rw [toList_sanitizeTextPayload, List.filterMap_congr h.kept, List.filterMap_some,
    h.tidy.squeeze_eq h.blank]

theorem Sanitized.no_nul {l : List Char} (h : Sanitized l) {c : Char} (hc : c ∈ l) :
    c.toNat ≠ 0 := fun hzero =>
  absurd (h.kept c hc) (by rw [sanitizeChar_of_nul hzero]; nofun)

/-- A sanitised text behind a sanitised sender is sanitised. -/
theorem Sanitized.message {sender text : List Char} (hsender : Sanitized sender)
    (htext : Sanitized text) (hne : sender ≠ []) (htextNe : text ≠ []) :
    Sanitized (sender ++ [':', ' '] ++ text) := by
  have hmem : ∀ c ∈ sender ++ [':', ' '] ++ text, c ∈ sender ∨ (c = ':' ∨ c = ' ') ∨ c ∈ text := by
    intro c hc
    simpa [or_assoc] using hc
  obtain ⟨first, sender', rfl⟩ := List.exists_cons_of_ne_nil hne
  obtain ⟨next, text', rfl⟩ := List.exists_cons_of_ne_nil htextNe
  have hnext : isSpace next = false := htext.tidy.first next rfl
  refine ⟨fun c hc => ?_, fun c hc hspace => ?_, ⟨?_, ?_, ?_⟩⟩
  · rcases hmem c hc with h | (rfl | rfl) | h
    · exact hsender.kept c h
    · decide
    · decide
    · exact htext.kept c h
  · rcases hmem c hc with h | (rfl | rfl) | h
    · exact hsender.blank c h hspace
    · exact absurd hspace (by decide)
    · rfl
    · exact htext.blank c h hspace
  · exact hsender.tidy.first
  · rw [List.getLast?_append_of_ne_nil _ (List.cons_ne_nil _ _)]
    exact htext.tidy.last
  · rw [List.isChain_append, List.isChain_append]
    refine ⟨⟨hsender.tidy.single, ?_, ?_⟩, htext.tidy.single, ?_⟩
    · exact List.isChain_pair.mpr (by decide)
    · intro c _ d hd
      cases hd
      exact fun h => absurd h.2 (by decide)
    · intro c _ d hd
      cases hd
      exact fun h => absurd h.2 (by rw [hnext]; nofun)

/-! ## The sender -/

/-- The bytes of whole characters are cut out as a text. -/
theorem textSlice_eq {text : String} (front : List UInt8) (mid : List Char) (back : List UInt8)
    (h : encodeUTF8 text = front ++ (mid.flatMap String.utf8EncodeChar ++ back)) :
    textSlice text front.length (front.length + (mid.flatMap String.utf8EncodeChar).length) =
      some (String.ofList mid) := by
  have hmid := decodeUTF8_encodeUTF8 (String.ofList mid)
  rw [encodeUTF8, String.toList_ofList] at hmid
  rw [textSlice, h, slice_append _ _ _ rfl rfl, Option.bind_some, hmid]

/-- Every text has a sender and a text: it is cut before and behind bytes of ASCII. -/
theorem splitSender_total (text : String) : ∃ message, splitSender text = some message := by
  unfold splitSender
  split
  · rename_i colon hcolon
    split
    · obtain ⟨front, back, htext, rfl⟩ := indexOf_split hcolon
      obtain ⟨u, _, v, -, -, rfl, hv⟩ :=
        exists_of_encodeUTF8_eq_append (b := 0x3A) (by decide) htext
      obtain ⟨_, _, w, -, -, -, rfl⟩ :=
        exists_of_encodeUTF8_eq_append (b := 0x20) (by decide)
          (show v.flatMap String.utf8EncodeChar = [] ++ 0x20 :: back from hv.symm)
      have hsender := textSlice_eq [] u (0x3A :: 0x20 :: w.flatMap String.utf8EncodeChar) htext
      rw [List.length_nil, Nat.zero_add] at hsender
      rw [hsender, Option.bind_some]
      split
      · exact ⟨_, rfl⟩
      · have hrest : encodeUTF8 text = (u.flatMap String.utf8EncodeChar ++ [0x3A, 0x20]) ++
            (w.flatMap String.utf8EncodeChar ++ []) := by
          rw [htext, List.append_nil, List.append_assoc]
        have hslice := textSlice_eq _ w [] hrest
        rw [← List.length_append, ← List.append_nil (w.flatMap _), ← hrest, List.length_append]
          at hslice
        exact ⟨_, congrArg (Option.map _) hslice⟩
    · exact ⟨_, rfl⟩
  · exact ⟨_, rfl⟩

/-- A byte of ASCII is in the bytes of its character only. -/
theorem colon_notMem_encodeUTF8 {s : String} (h : ∀ c ∈ s.toList, c ≠ ':') :
    (0x3A : UInt8) ∉ encodeUTF8 s := by
  intro hmem
  obtain ⟨c, hc, hbyte⟩ := List.mem_flatMap.mp hmem
  exact h c hc (Char.toNat_inj.mp (utf8EncodeChar_of_mem hbyte (by decide)).2)

theorem encodeUTF8_append (s t : String) : encodeUTF8 (s ++ t) = encodeUTF8 s ++ encodeUTF8 t := by
  rw [encodeUTF8, String.toList_append, List.flatMap_append]
  rfl

/-- A text has at most as many characters as bytes. -/
theorem length_toList_le (s : String) : s.toList.length ≤ (encodeUTF8 s).length := by
  unfold encodeUTF8
  induction s.toList with
  | nil => exact Nat.le_refl _
  | cons c l ih =>
    have hpos := String.length_utf8EncodeChar c
    have := c.utf8Size_pos
    rw [List.flatMap_cons, List.length_append, List.length_cons]
    omega

/-- A sender that is short and free of marks is read back. -/
theorem splitSender_message {sender text : String} (hsender : sanitizeTextPayload sender = sender)
    (htext : sanitizeTextPayload text = text) (hpos : 1 ≤ (encodeUTF8 sender).length)
    (hle : (encodeUTF8 sender).length ≤ 49)
    (hfree : ∀ c ∈ sender.toList, c ≠ ':' ∧ c ≠ '[' ∧ c ≠ ']') :
    splitSender (sender ++ ": " ++ text) = some { sender, text } := by
  have hbytes : encodeUTF8 (sender ++ ": " ++ text) =
      encodeUTF8 sender ++ ([0x3A, 0x20] ++ encodeUTF8 text) := by
    rw [encodeUTF8_append, encodeUTF8_append, List.append_assoc]
    rfl
  have hcolon := indexOf_append (colon_notMem_encodeUTF8 fun c hc => (hfree c hc).1) [0x20]
    (encodeUTF8 text)
  have hlength : (encodeUTF8 (sender ++ ": " ++ text)).length =
      (encodeUTF8 sender).length + 2 + (encodeUTF8 text).length := by
    rw [hbytes, List.length_append, List.length_append, ← Nat.add_assoc]
    rfl
  have hfirst : textSlice (sender ++ ": " ++ text) 0 (encodeUTF8 sender).length = some sender := by
    have h := textSlice_eq [] sender.toList _ hbytes
    rwa [List.length_nil, Nat.zero_add, String.ofList_toList] at h
  have hrest : textSlice (sender ++ ": " ++ text) ((encodeUTF8 sender).length + 2)
      (encodeUTF8 (sender ++ ": " ++ text)).length = some text := by
    have hbehind : encodeUTF8 (sender ++ ": " ++ text) =
        (encodeUTF8 sender ++ [0x3A, 0x20]) ++ (encodeUTF8 text ++ []) := by
      rw [hbytes, List.append_nil, List.append_assoc]
    have h := textSlice_eq _ text.toList [] hbehind
    rw [String.ofList_toList, List.length_append] at h
    rw [hlength]
    exact h
  have hmarks : sender.toList.any (· ∈ [':', '[', ']']) = false := by
    rw [List.any_eq_false]
    intro c hc
    simpa [and_assoc] using hfree c hc
  have hchars := length_toList_le sender
  unfold splitSender
  rw [hbytes, hcolon, ← hbytes]
  dsimp only
  rw [if_pos ⟨by omega, by omega⟩, hfirst, Option.bind_some, hmarks, if_neg (by nofun), hrest,
    Option.map_some, hsender, htext, limitPublicMessageField, if_pos (by omega)]

/-! ## The plaintext -/

theorem cutNUL_total (bytes : List UInt8) : ∃ cut, cutNUL bytes = some cut := by
  unfold cutNUL
  split
  · rename_i nul hnul
    obtain ⟨hlt, -⟩ := List.findIdx?_eq_some_iff_getElem.mp hnul
    exact ⟨_, slice_eq_some (Nat.zero_le _) hlt.le⟩
  · exact ⟨_, rfl⟩

/-- The NULs behind a text are cut, and nothing else is. -/
theorem cutNUL_padded {bytes : List UInt8} (hbytes : ∀ b ∈ bytes, b ≠ 0) (nuls : Nat) :
    cutNUL (bytes ++ List.replicate nuls 0) = some bytes := by
  have hnone : bytes.findIdx? (· = (0 : UInt8)) = none :=
    List.findIdx?_eq_none_iff.mpr fun b hb => decide_eq_false (hbytes b hb)
  unfold cutNUL bytesIndexByte
  rw [List.findIdx?_append, hnone]
  cases nuls with
  | zero => rw [List.replicate_zero, List.append_nil]; rfl
  | succ nuls =>
    show slice _ 0 (0 + bytes.length) = _
    exact slice_append [] bytes _ rfl rfl

theorem parse_total (plaintext : List UInt8) :
    ∃ message, parseGroupTextPlaintext plaintext = some message := by
  unfold parseGroupTextPlaintext
  split
  · exact ⟨_, rfl⟩
  · rename_i hlong
    obtain ⟨bytes, hbytes⟩ := cutNUL_total (plaintext.drop 5)
    rw [slice_length (by omega), Option.bind_some, hbytes, Option.bind_some]
    cases decodeUTF8 bytes with
    | none => exact ⟨_, rfl⟩
    | some message =>
      dsimp only
      split
      · exact ⟨_, rfl⟩
      · exact splitSender_total _

/-- A message is read back from its plaintext. -/
theorem parse_plaintext (m : GroupMessage) :
    parseGroupTextPlaintext m.plaintext = some { sender := m.sender, text := m.text } := by
  have hsender := sanitized_of_eq m.sanitize_sender
  have htext := sanitized_of_eq m.sanitize_text
  have hne : m.sender.toList ≠ [] := by
    intro hnil
    have hpos := m.sender_pos
    rw [encodeUTF8, hnil] at hpos
    exact absurd hpos (by decide)
  have htextNe : m.text.toList ≠ [] := fun hnil =>
    m.text_ne (String.toList_inj.mp hnil)
  have hmessage : Sanitized (m.sender ++ ": " ++ m.text).toList := by
    rw [String.toList_append, String.toList_append]
    exact hsender.message htext hne htextNe
  have hnul : ∀ b ∈ encodeUTF8 (m.sender ++ ": " ++ m.text), b ≠ 0 := by
    intro b hb
    obtain ⟨c, hc, hbc⟩ := List.mem_flatMap.mp hb
    exact ne_zero_of_mem_utf8EncodeChar (hmessage.no_nul hc) hbc
  have hfull : m.sender ++ ": " ++ m.text ≠ "" := by
    intro hempty
    have := congrArg String.toList hempty
    rw [String.toList_append, String.toList_append] at this
    simp [hne] at this
  unfold parseGroupTextPlaintext GroupMessage.plaintext GroupMessage.zeroPad
  generalize (blockSize - _ % blockSize) % blockSize = nuls
  rw [List.append_assoc, List.cons_append]
  have hlong : 5 ≤ (littleEndianBytes m.timestamp ++ m.flags ::
      (encodeUTF8 (m.sender ++ ": " ++ m.text) ++ List.replicate nuls 0)).length := by
    simp only [List.length_append, List.length_cons, length_littleEndianBytes]
    omega
  rw [if_neg (by omega), slice_length hlong, Option.bind_some]
  have hdrop : (littleEndianBytes m.timestamp ++ m.flags ::
      (encodeUTF8 (m.sender ++ ": " ++ m.text) ++ List.replicate nuls 0)).drop 5 =
        encodeUTF8 (m.sender ++ ": " ++ m.text) ++ List.replicate nuls 0 := rfl
  rw [hdrop, cutNUL_padded hnul, Option.bind_some, decodeUTF8_encodeUTF8]
  dsimp only
  rw [hmessage.eq, if_neg hfull]
  exact splitSender_message m.sanitize_sender m.sanitize_text m.sender_pos m.sender_le m.sender_free

/-! ## Blocks -/

variable (crypto : Crypto)

theorem decryptBlocks_total {ciphertext : List UInt8} (key : List UInt8)
    (h : ciphertext.length % blockSize = 0) :
    ∃ plaintext, decryptBlocks crypto key ciphertext = some plaintext := by
  unfold decryptBlocks
  rw [mapM_range_eq_some (f := fun turn =>
    crypto.decryptBlock key ((ciphertext.drop (turn * blockSize)).take blockSize))]
  · exact ⟨_, rfl⟩
  · intro turn hturn
    rw [slice_add (by unfold blockSize at *; omega), Option.map_some]

theorem length_plaintext (m : GroupMessage) :
    m.plaintext.length / blockSize * blockSize = m.plaintext.length := by
  refine Nat.div_mul_cancel (Nat.dvd_of_mod_eq_zero ?_)
  unfold GroupMessage.plaintext GroupMessage.zeroPad
  rw [List.length_append, List.length_replicate]
  unfold blockSize
  omega

/-- A block of the plaintext. -/
theorem length_plaintextBlock (m : GroupMessage) {turn : Nat}
    (hturn : turn < m.plaintext.length / blockSize) :
    ((m.plaintext.drop (turn * blockSize)).take blockSize).length = blockSize := by
  have hlength := length_plaintext m
  rw [List.length_take, List.length_drop]
  unfold blockSize at *
  omega

/-- A block of the ciphertext. -/
theorem length_ciphertextBlock (m : GroupMessage) :
    ∀ turn < m.plaintext.length / blockSize,
      (crypto.encryptBlock m.key
        ((m.plaintext.drop (turn * blockSize)).take blockSize)).length = blockSize :=
  fun _ hturn => crypto.length_encryptBlock _ _ (length_plaintextBlock m hturn)

theorem length_ciphertext (m : GroupMessage) :
    (m.ciphertext crypto).length = m.plaintext.length :=
  (length_flatMap_range (length_ciphertextBlock crypto m)).trans (length_plaintext m)

/-- The blocks are decrypted to the plaintext. -/
theorem decryptBlocks_ciphertext (m : GroupMessage) :
    decryptBlocks crypto m.key (m.ciphertext crypto) = some m.plaintext := by
  have hturns : ((m.ciphertext crypto).length + (blockSize - 1)) / blockSize =
      m.plaintext.length / blockSize := by
    have hlength := length_plaintext m
    rw [length_ciphertext]
    unfold blockSize at *
    omega
  have hblocks := flatMap_slices m.plaintext blockSize (m.plaintext.length / blockSize)
  rw [length_plaintext, List.take_length] at hblocks
  unfold decryptBlocks
  rw [hturns, mapM_range_eq_some (f := fun turn =>
    (m.plaintext.drop (turn * blockSize)).take blockSize)]
  · rw [Option.map_some, ← List.flatMap_def, hblocks]
  · intro turn hturn
    rw [GroupMessage.ciphertext, slice_flatMap_range (length_ciphertextBlock crypto m) hturn,
      Option.map_some, crypto.decryptBlock_encryptBlock _ _ m.length_key
        (length_plaintextBlock m hturn)]

/-! ## Decryption -/

/-- The first two bytes of the code of a ciphertext are the ones in front of it. -/
def MACMatches (key cipherMAC ciphertext : List UInt8) : Prop :=
  (crypto.hmacSha256 (channelSecret key) ciphertext).take 2 = cipherMAC

variable {crypto} {key cipherMAC ciphertext : List UInt8}

/-- What `decryptGroupText` does behind the check of the code. -/
theorem decryptGroupText_eq (hmac : cipherMAC.length = 2)
    (hmatch : MACMatches crypto key cipherMAC ciphertext) :
    decryptGroupText crypto ciphertext cipherMAC key =
      if key.length ∉ [16, 24, 32] then some {}
      else (decryptBlocks crypto key ciphertext).bind fun plaintext =>
        if plaintext.length < 5 then some {} else parseGroupTextPlaintext plaintext := by
  have hlength := crypto.length_hmacSha256 (channelSecret key) ciphertext
  unfold MACMatches at hmatch
  unfold decryptGroupText
  dsimp only
  rw [if_neg (by omega), slice_eq_some (by omega) (by omega), slice_eq_some (by omega) (by omega),
    Option.bind_some, Option.bind_some, List.drop_zero, List.drop_zero, hmatch, ← hmac,
    List.take_length, if_neg (not_not.mpr rfl)]

theorem decryptGroupText_of_mismatch (hmac : cipherMAC.length = 2)
    (hmismatch : ¬MACMatches crypto key cipherMAC ciphertext) :
    decryptGroupText crypto ciphertext cipherMAC key = some {} := by
  have hlength := crypto.length_hmacSha256 (channelSecret key) ciphertext
  unfold MACMatches at hmismatch
  unfold decryptGroupText
  dsimp only
  rw [if_neg (by omega), slice_eq_some (by omega) (by omega), slice_eq_some (by omega) (by omega),
    Option.bind_some, Option.bind_some, List.drop_zero, List.drop_zero,
    List.take_of_length_le hmac.le, if_pos hmismatch]

theorem decryptGroupText_total (crypto : Crypto) (key : List UInt8) (hmac : cipherMAC.length = 2)
    (hblocks : ciphertext.length % blockSize = 0) :
    ∃ message, decryptGroupText crypto ciphertext cipherMAC key = some message := by
  by_cases hmatch : MACMatches crypto key cipherMAC ciphertext
  · obtain ⟨plaintext, hplaintext⟩ := decryptBlocks_total crypto key hblocks
    rw [decryptGroupText_eq hmac hmatch, hplaintext, Option.bind_some]
    split
    · exact ⟨_, rfl⟩
    · split
      · exact ⟨_, rfl⟩
      · exact parse_total plaintext
  · exact ⟨_, decryptGroupText_of_mismatch hmac hmatch⟩

/-! ## Hexadecimal text -/

theorem fromHexChar_digitChar : ∀ n < 16, fromHexChar (Nat.digitChar n) = some n := by decide

theorem digitChar_toLower : ∀ n < 16, (Nat.digitChar n).toLower = Nat.digitChar n := by decide

/-- A hexadecimal digit in small letters. -/
theorem exists_digitChar {c : Char} (h : hexCleanerKeeps c = true) :
    ∃ n < 16, c.toLower = Nat.digitChar n := by
  have hall : ∀ n < 128, hexCleanerKeeps (Char.ofNat n) = true →
      ∃ m < 16, (Char.ofNat n).toLower = Nat.digitChar m := by decide
  have hlt : c.toNat < 128 := by
    simp only [hexCleanerKeeps, Bool.or_eq_true, Bool.and_eq_true, decide_eq_true_eq] at h
    omega
  have hc := hall c.toNat hlt
  rw [Char.ofNat_toNat] at hc
  exact hc h

/-- Bytes are read back from their digits. -/
theorem decodeHex_flatMap (bytes : List UInt8) :
    decodeHex (bytes.flatMap hexByte) = some bytes := by
  induction bytes with
  | nil => rfl
  | cons b bytes ih =>
    have hlt : b.toNat < 256 := b.toNat_lt
    show decodeHex (Nat.digitChar (b.toNat / 16) :: Nat.digitChar (b.toNat % 16) ::
      bytes.flatMap hexByte) = _
    rw [decodeHex, fromHexChar_digitChar _ (by omega), fromHexChar_digitChar _ (by omega), ih,
      Option.bind_some, Option.bind_some, Option.map_some, Nat.div_add_mod', UInt8.ofNat_toNat]

/-- An even number of digits are those of bytes. -/
theorem exists_bytes : ∀ l : List Char, (∀ c ∈ l, ∃ n < 16, c = Nat.digitChar n) →
    l.length % 2 = 0 → ∃ bytes : List UInt8, l = bytes.flatMap hexByte
  | [], _, _ => ⟨[], rfl⟩
  | [_], _, heven => by cases heven
  | high :: low :: l, hdigits, heven => by
    obtain ⟨a, ha, rfl⟩ := hdigits _ List.mem_cons_self
    obtain ⟨b, hb, rfl⟩ := hdigits _ (List.mem_cons_of_mem _ List.mem_cons_self)
    obtain ⟨bytes, rfl⟩ := exists_bytes l
      (fun c hc => hdigits c (List.mem_cons_of_mem _ (List.mem_cons_of_mem _ hc)))
      (by rw [List.length_cons, List.length_cons] at heven; omega)
    refine ⟨UInt8.ofNat (a * 16 + b) :: bytes, ?_⟩
    have hnat : (UInt8.ofNat (a * 16 + b)).toNat = a * 16 + b := by
      rw [UInt8.toNat_ofNat']
      omega
    rw [List.flatMap_cons, hexByte, hnat, show (a * 16 + b) / 16 = a by omega,
      show (a * 16 + b) % 16 = b by omega]
    rfl

theorem toList_encodeHex (bytes : List UInt8) :
    (encodeHex bytes).toList = bytes.flatMap hexByte :=
  String.toList_ofList

theorem encodeHex_injective {a b : List UInt8} (h : encodeHex a = encodeHex b) : a = b := by
  have hlist : decodeHex (encodeHex a).toList = decodeHex (encodeHex b).toList := by rw [h]
  rw [toList_encodeHex, toList_encodeHex, decodeHex_flatMap, decodeHex_flatMap] at hlist
  exact Option.some.inj hlist

theorem toLower_encodeHex (bytes : List UInt8) : toLower (encodeHex bytes) = encodeHex bytes := by
  have hlower : ∀ c ∈ (encodeHex bytes).toList, c.toLower = id c := by
    intro c hc
    rw [toList_encodeHex] at hc
    obtain ⟨b, -, hb⟩ := List.mem_flatMap.mp hc
    have hlt : b.toNat < 256 := b.toNat_lt
    rcases List.mem_pair.mp hb with rfl | rfl
    · exact digitChar_toLower _ (by omega)
    · exact digitChar_toLower _ (by omega)
  rw [toLower, List.map_congr_left hlower, List.map_id, String.ofList_toList]

/-! ## Secrets -/

/-- The digits of a secret, in small letters. -/
def digitsOf (secret : String) : String := toLower (hexCleaner secret)

/-- The key of the public channel. -/
def defaultPublicChannelKey : List UInt8 :=
  [0x8B, 0x33, 0x87, 0xE9, 0xC5, 0xCD, 0xEA, 0x6A, 0xC9, 0xE5, 0xED, 0xBA, 0xA1, 0x15, 0xCD, 0x72]

/-- The key that a configured secret stands for. -/
inductive Yields (crypto : Crypto) (secret : String) : List UInt8 → Prop
  /-- The name of the public channel. -/
  | publicChannel (hname : toLower (trimSpace secret) = "public") :
      Yields crypto secret defaultPublicChannelKey
  /-- A key in digits of either case with anything between them, and bytes behind it. -/
  | hex {key : List UInt8} (rest : List UInt8) (hlength : key.length = blockSize)
      (hdigits : digitsOf (trimSpace secret) = encodeHex (key ++ rest)) : Yields crypto secret key
  /-- The name of another channel: too few digits for a key, or an odd number of them. -/
  | name (hne : trimSpace secret ≠ "") (hname : toLower (trimSpace secret) ≠ "public")
      (hdigits : (digitsOf (trimSpace secret)).toList.length < 32 ∨
        (digitsOf (trimSpace secret)).toList.length % 2 = 1) :
      Yields crypto secret ((crypto.sha256 (encodeUTF8 (trimSpace secret))).take blockSize)

variable {secret : String}

theorem exists_digits (secret : String) (heven : (digitsOf secret).toList.length % 2 = 0) :
    ∃ bytes, digitsOf secret = encodeHex bytes := by
  obtain ⟨bytes, hbytes⟩ := exists_bytes (digitsOf secret).toList (fun c hc => by
    rw [digitsOf, toLower, hexCleaner, String.toList_ofList, String.toList_ofList] at hc
    obtain ⟨d, hd, rfl⟩ := List.mem_map.mp hc
    exact exists_digitChar (List.mem_filter.mp hd).2) heven
  exact ⟨bytes, String.toList_inj.mp (hbytes.trans (toList_encodeHex bytes).symm)⟩

/-- The key of digits. -/
theorem channelKey_digits {key : List UInt8} (rest : List UInt8)
    (hlength : key.length = blockSize) (hdigits : digitsOf secret = encodeHex (key ++ rest)) :
    channelKey crypto secret = some (some key) := by
  have hcount : (digitsOf secret).toList.length = 2 * (key ++ rest).length := by
    rw [hdigits, toList_encodeHex, length_flatMap_hexByte]
  have hlong : (key ++ rest).length = blockSize + rest.length := by
    rw [List.length_append, hlength]
  unfold channelKey
  dsimp only
  rw [show toLower (hexCleaner secret) = digitsOf secret from rfl,
    if_pos (by unfold blockSize at *; omega), hdigits, toList_encodeHex, decodeHex_flatMap]
  dsimp only
  rw [if_neg (by omega)]
  have hslice := slice_append [] key rest rfl (by rw [List.length_nil, Nat.zero_add])
  rw [hlength] at hslice
  exact congrArg (Option.map some) hslice

/-- The key of a name. -/
theorem channelKey_name (hdigits : (digitsOf secret).toList.length < 32 ∨
      (digitsOf secret).toList.length % 2 = 1) :
    channelKey crypto secret =
      some (some ((crypto.sha256 (encodeUTF8 secret)).take blockSize)) := by
  have hlength := crypto.length_sha256 (encodeUTF8 secret)
  unfold channelKey
  dsimp only
  rw [show toLower (hexCleaner secret) = digitsOf secret from rfl, if_neg (by omega),
    slice_eq_some (Nat.zero_le _) (by unfold blockSize; omega), List.drop_zero, Option.map_some]

/-- A name has as many characters as its small letters, and at least as many as digits. -/
theorem length_digitsOf_le (secret : String) :
    (digitsOf secret).toList.length ≤ (toLower secret).toList.length := by
  rw [digitsOf, toLower, toLower, hexCleaner, String.toList_ofList, String.toList_ofList,
    String.toList_ofList, List.length_map, List.length_map]
  exact List.length_filter_le _ _

/-- A secret that stands for a key is not blank. -/
theorem Yields.trimSpace_ne (h : Yields crypto secret key) : trimSpace secret ≠ "" := by
  intro hblank
  cases h with
  | publicChannel hname =>
    rw [hblank] at hname
    exact absurd hname (by decide)
  | hex rest hlength hdigits =>
    have hcount : (digitsOf (trimSpace secret)).toList.length =
        (encodeHex (key ++ rest)).toList.length := by rw [hdigits]
    rw [hblank, toList_encodeHex, length_flatMap_hexByte, List.length_append, hlength] at hcount
    have hnone : (digitsOf "").toList.length = 0 := rfl
    unfold blockSize at hcount
    omega
  | name hne => exact hne hblank

theorem exists_first (crypto : Crypto) (key : List UInt8) :
    ∃ first, (crypto.sha256 key)[0]? = some first :=
  ⟨_, List.getElem?_eq_getElem (by rw [crypto.length_sha256]; decide)⟩

/-- The key of a secret is tried where its hash has the first byte of the payload. -/
theorem normalizeChannelSecret_of_yields (h : Yields crypto secret key) {first : UInt8}
    (hfirst : (crypto.sha256 key)[0]? = some first) (packetChannelHash : String) :
    normalizeChannelSecret crypto secret packetChannelHash =
      some (if encodeHex [first] ≠ packetChannelHash then ([], false) else (key, true)) := by
  have hne := h.trimSpace_ne
  have hkey : channelKey crypto (if toLower (trimSpace secret) = "public" then
      defaultPublicChannelKeyHex else trimSpace secret) = some (some key) := by
    cases h with
    | publicChannel hname =>
      rw [if_pos hname]
      exact channelKey_digits [] rfl (by decide +kernel)
    | hex rest hlength hdigits =>
      have hname : toLower (trimSpace secret) ≠ "public" := by
        intro hname
        have hle := length_digitsOf_le (trimSpace secret)
        rw [hdigits, hname, toList_encodeHex, length_flatMap_hexByte, List.length_append, hlength]
          at hle
        have hpublic : "public".toList.length = 6 := rfl
        unfold blockSize at hle
        omega
      rw [if_neg hname]
      exact channelKey_digits rest hlength hdigits
    | name _ hname hdigits =>
      rw [if_neg hname]
      exact channelKey_name hdigits
  unfold normalizeChannelSecret
  dsimp only
  rw [if_neg hne, hkey, Option.bind_some]
  dsimp only
  rw [hfirst, Option.map_some]

/-- A secret that stands for no key is passed over. -/
theorem normalizeChannelSecret_of_not_yields (h : ∀ key, ¬Yields crypto secret key)
    (packetChannelHash : String) :
    normalizeChannelSecret crypto secret packetChannelHash = some ([], false) := by
  by_cases hblank : trimSpace secret = ""
  · unfold normalizeChannelSecret
    dsimp only
    rw [if_pos hblank]
  by_cases hname : toLower (trimSpace secret) = "public"
  · exact absurd (.publicChannel hname) (h _)
  by_cases hcount : 32 ≤ (digitsOf (trimSpace secret)).toList.length ∧
      (digitsOf (trimSpace secret)).toList.length % 2 = 0
  · obtain ⟨bytes, hbytes⟩ := exists_digits (trimSpace secret) hcount.2
    have hlong := hcount.1
    rw [hbytes, toList_encodeHex, length_flatMap_hexByte] at hlong
    refine absurd (.hex (bytes.drop blockSize) ?_ ?_) (h (bytes.take blockSize))
    · rw [List.length_take]
      unfold blockSize
      omega
    · rw [List.take_append_drop, hbytes]
  · exact absurd (.name hblank hname (by omega)) (h _)

/-- A secret stands for at most one key. -/
theorem Yields.unique {other : List UInt8} (h : Yields crypto secret key)
    (hother : Yields crypto secret other) : key = other := by
  obtain ⟨first, hfirst⟩ := exists_first crypto key
  obtain ⟨first', hfirst'⟩ := exists_first crypto other
  have hkey := normalizeChannelSecret_of_yields h hfirst (encodeHex [first])
  rw [normalizeChannelSecret_of_yields hother hfirst', if_neg (not_not.mpr rfl)] at hkey
  split at hkey
  · cases hkey
  · exact (Prod.mk.inj (Option.some.inj hkey)).1.symm

/-! ## The list of secrets -/

/-- The first byte of the hash of the key of a secret, and the first two of the code of the
ciphertext with it, are those of the payload. -/
def PassesChecks (crypto : Crypto) (payload : List UInt8) (secret : String) : Prop :=
  ∃ key, Yields crypto secret key ∧ (crypto.sha256 key)[0]? = payload[0]? ∧
    MACMatches crypto key ((payload.drop 1).take 2) (payload.drop 3)

section Secrets

variable {payload : List UInt8} {secrets : List String}

/-- The loop over the secrets, for a payload. -/
def tryPayload (crypto : Crypto) (payload : List UInt8) (secrets : List String) :
    Option DecodedPublicMessage :=
  tryChannelSecrets crypto (encodeHex (payload.take 1)) ((payload.drop 1).take 2)
    (payload.drop 3) secrets

theorem decode_eq (hlong : 3 ≤ payload.length) (channelSecrets : List String) :
    decodeGroupTextMessage crypto payload channelSecrets =
      if (payload.drop 3).length = 0 ∨ (payload.drop 3).length % blockSize ≠ 0 then some {}
      else tryPayload crypto payload (groupTextChannelSecrets channelSecrets) := by
  have hmac : slice payload 1 3 = some ((payload.drop 1).take 2) :=
    slice_add (show 1 + 2 ≤ payload.length from hlong)
  unfold decodeGroupTextMessage tryPayload
  rw [if_neg (by omega), slice_eq_some (by omega) (by omega), hmac, slice_length hlong,
    Option.bind_some, List.drop_zero, toLower_encodeHex]
  rfl

/-- The blank secrets are left out. -/
theorem groupTextChannelSecrets_eq (channelSecrets : List String) :
    groupTextChannelSecrets channelSecrets =
      (channelSecrets ++ [defaultPublicChannelKeyHex]).filter
        fun secret => trimSpace secret ≠ "" := by
  rw [List.filter_append]
  rfl

theorem take_one (hlong : 3 ≤ payload.length) : payload.take 1 = [payload[0]] := by
  cases payload with
  | nil => cases hlong
  | cons first rest => rfl

theorem length_mac (hlong : 3 ≤ payload.length) : ((payload.drop 1).take 2).length = 2 := by
  rw [List.length_take, List.length_drop]
  omega

/-- The hash of a key is that of the payload where the first bytes are. -/
theorem encodeHex_eq_iff (hlong : 3 ≤ payload.length) {first : UInt8}
    (hfirst : (crypto.sha256 key)[0]? = some first) :
    encodeHex [first] = encodeHex (payload.take 1) ↔ (crypto.sha256 key)[0]? = payload[0]? := by
  rw [hfirst, List.getElem?_eq_getElem (show 0 < payload.length by omega), take_one hlong]
  constructor
  · intro h
    rw [(List.cons.inj (encodeHex_injective h)).1]
  · intro h
    rw [Option.some.inj h]

/-- A secret that fails a check is passed over. -/
theorem tryPayload_cons_of_fails (hlong : 3 ≤ payload.length)
    (hfails : ¬PassesChecks crypto payload secret) :
    tryPayload crypto payload (secret :: secrets) = tryPayload crypto payload secrets := by
  unfold tryPayload
  rw [tryChannelSecrets]
  by_cases hyields : ∃ key, Yields crypto secret key
  · obtain ⟨key, hkey⟩ := hyields
    obtain ⟨first, hfirst⟩ := exists_first crypto key
    rw [normalizeChannelSecret_of_yields hkey hfirst, Option.bind_some]
    by_cases hhash : (crypto.sha256 key)[0]? = payload[0]?
    · have hmismatch : ¬MACMatches crypto key ((payload.drop 1).take 2) (payload.drop 3) :=
        fun hmatch => hfails ⟨key, hkey, hhash, hmatch⟩
      rw [if_neg (not_not.mpr ((encodeHex_eq_iff hlong hfirst).mpr hhash))]
      dsimp only
      rw [decryptGroupText_of_mismatch (length_mac hlong) hmismatch]
      rfl
    · rw [if_pos fun h => hhash ((encodeHex_eq_iff hlong hfirst).mp h)]
      rfl
  · rw [normalizeChannelSecret_of_not_yields fun key hkey => hyields ⟨key, hkey⟩]
    rfl

theorem tryPayload_append_of_fails (hlong : 3 ≤ payload.length) {before : List String}
    (hfails : ∀ s ∈ before, ¬PassesChecks crypto payload s) :
    tryPayload crypto payload (before ++ secrets) = tryPayload crypto payload secrets := by
  induction before with
  | nil => rfl
  | cons s before ih =>
    rw [List.cons_append, tryPayload_cons_of_fails hlong (hfails s List.mem_cons_self)]
    exact ih fun other hother => hfails other (List.mem_cons_of_mem _ hother)

/-- A secret of which the key passes the checks ends the search, if there is a text. -/
theorem tryPayload_cons_of_yields (hlong : 3 ≤ payload.length) (hkey : Yields crypto secret key)
    (hhash : (crypto.sha256 key)[0]? = payload[0]?) {message : DecodedPublicMessage}
    (hmessage : decryptGroupText crypto (payload.drop 3) ((payload.drop 1).take 2) key =
      some message) (hne : message.text ≠ "") :
    tryPayload crypto payload (secret :: secrets) = some message := by
  obtain ⟨first, hfirst⟩ := exists_first crypto key
  unfold tryPayload
  rw [tryChannelSecrets, normalizeChannelSecret_of_yields hkey hfirst, Option.bind_some,
    if_neg (not_not.mpr ((encodeHex_eq_iff hlong hfirst).mpr hhash))]
  dsimp only
  rw [hmessage, if_neg (by nofun), Option.bind_some, if_pos hne]

theorem tryPayload_total (hlong : 3 ≤ payload.length)
    (hblocks : (payload.drop 3).length % blockSize = 0) (secrets : List String) :
    ∃ message, tryPayload crypto payload secrets = some message := by
  induction secrets with
  | nil => exact ⟨_, rfl⟩
  | cons secret secrets ih =>
    by_cases hpasses : PassesChecks crypto payload secret
    · obtain ⟨key, hkey, hhash, -⟩ := hpasses
      obtain ⟨message, hmessage⟩ := decryptGroupText_total crypto key (length_mac hlong) hblocks
      by_cases hne : message.text ≠ ""
      · exact ⟨_, tryPayload_cons_of_yields hlong hkey hhash hmessage hne⟩
      · obtain ⟨first, hfirst⟩ := exists_first crypto key
        unfold tryPayload at ih ⊢
        rw [tryChannelSecrets, normalizeChannelSecret_of_yields hkey hfirst, Option.bind_some,
          if_neg (not_not.mpr ((encodeHex_eq_iff hlong hfirst).mpr hhash))]
        dsimp only
        rw [hmessage, if_neg (by nofun), Option.bind_some, if_neg hne]
        exact ih
    · rw [tryPayload_cons_of_fails hlong hpasses]
      exact ih

end Secrets

/-! ## Messages -/

theorem length_take_hmac (m : GroupMessage) :
    ((crypto.hmacSha256 (channelSecret m.key) (m.ciphertext crypto)).take 2).length = 2 := by
  rw [List.length_take, crypto.length_hmacSha256]
  rfl

/-- The parts of the payload of a message. -/
theorem encode_parts (crypto : Crypto) (m : GroupMessage) :
    (m.encode crypto)[0]? = (crypto.sha256 m.key)[0]? ∧
      ((m.encode crypto).drop 1).take 2 =
        (crypto.hmacSha256 (channelSecret m.key) (m.ciphertext crypto)).take 2 ∧
      (m.encode crypto).drop 3 = m.ciphertext crypto := by
  obtain ⟨first, hfirst⟩ := exists_first crypto m.key
  have htake : (crypto.sha256 m.key).take 1 = [first] := by
    rw [List.take_one, List.head?_eq_getElem?, hfirst]
    rfl
  have hdrop : (m.encode crypto).drop 1 =
      (crypto.hmacSha256 (channelSecret m.key) (m.ciphertext crypto)).take 2 ++
        m.ciphertext crypto := by
    rw [GroupMessage.encode, htake]
    rfl
  refine ⟨?_, ?_, ?_⟩
  · rw [GroupMessage.encode, htake, hfirst]
    rfl
  · rw [hdrop, List.take_left' (length_take_hmac m)]
  · rw [← List.drop_drop (i := 2) (j := 1), hdrop, List.drop_left' (length_take_hmac m)]

/-- A ciphertext has at least one block, and only whole ones. -/
theorem ciphertext_blocks (crypto : Crypto) (m : GroupMessage) :
    5 ≤ (m.ciphertext crypto).length ∧ (m.ciphertext crypto).length % blockSize = 0 := by
  have hlength := length_plaintext m
  have hheader : 5 ≤ m.plaintext.length := by
    unfold GroupMessage.plaintext GroupMessage.zeroPad
    simp only [List.length_append, List.length_cons, length_littleEndianBytes]
    omega
  rw [length_ciphertext]
  exact ⟨hheader, by rw [← hlength, Nat.mul_mod_left]⟩

theorem decryptGroupText_ciphertext (crypto : Crypto) (m : GroupMessage) :
    decryptGroupText crypto (m.ciphertext crypto)
        ((crypto.hmacSha256 (channelSecret m.key) (m.ciphertext crypto)).take 2) m.key =
      some { sender := m.sender, text := m.text } := by
  have hplaintext : ¬m.plaintext.length < 5 := by
    rw [← length_ciphertext crypto]
    exact Nat.not_lt.mpr (ciphertext_blocks crypto m).1
  have hkey : m.key.length ∈ [16, 24, 32] := by
    rw [m.length_key]
    exact List.mem_cons_self
  rw [decryptGroupText_eq (length_take_hmac m) rfl, if_neg (not_not.mpr hkey),
    decryptBlocks_ciphertext, Option.bind_some, if_neg hplaintext, parse_plaintext]

/-- A message is read back where the first secret that passes the checks stands for its key. -/
theorem decode_encode (crypto : Crypto) (m : GroupMessage)
    {channelSecrets before after : List String} {secret : String}
    (hsplit : channelSecrets ++ [defaultPublicChannelKeyHex] = before ++ secret :: after)
    (hfails : ∀ s ∈ before, ¬PassesChecks crypto (m.encode crypto) s)
    (hkey : Yields crypto secret m.key) :
    decodeGroupTextMessage crypto (m.encode crypto) channelSecrets =
      some { sender := m.sender, text := m.text } := by
  obtain ⟨hfirst, hmac, hciphertext⟩ := encode_parts crypto m
  obtain ⟨hpos, hblocks⟩ := ciphertext_blocks crypto m
  have hlong : 3 ≤ (m.encode crypto).length := by
    have hlength := congrArg List.length hciphertext
    rw [List.length_drop] at hlength
    omega
  rw [decode_eq hlong, hciphertext, if_neg (by omega), groupTextChannelSecrets_eq, hsplit,
    List.filter_append, List.filter_cons, if_pos (decide_eq_true hkey.trimSpace_ne),
    tryPayload_append_of_fails hlong fun s hs => hfails s (List.mem_of_mem_filter hs)]
  refine tryPayload_cons_of_yields hlong hkey hfirst.symm ?_ m.text_ne
  rw [hciphertext, hmac]
  exact decryptGroupText_ciphertext crypto m

/-- Without a key that passes the checks, there is no message. -/
theorem decode_of_fails (crypto : Crypto) {payload : List UInt8} {channelSecrets : List String}
    (hfails : ∀ s ∈ channelSecrets ++ [defaultPublicChannelKeyHex],
      ¬PassesChecks crypto payload s) :
    decodeGroupTextMessage crypto payload channelSecrets = some {} := by
  by_cases hlong : 3 ≤ payload.length
  · rw [decode_eq hlong]
    split
    · rfl
    · rw [groupTextChannelSecrets_eq]
      rw [← List.append_nil (List.filter _ _),
        tryPayload_append_of_fails hlong fun s hs => hfails s (List.mem_of_mem_filter hs)]
      rfl
  · exact if_pos (by omega)

/-- Every read is inside of what is read from. -/
theorem decode_total (crypto : Crypto) (payload : List UInt8) (channelSecrets : List String) :
    ∃ message, decodeGroupTextMessage crypto payload channelSecrets = some message := by
  by_cases hlong : 3 ≤ payload.length
  · rw [decode_eq hlong]
    split
    · exact ⟨_, rfl⟩
    · rename_i hblocks
      exact tryPayload_total hlong (by omega) _
  · exact ⟨_, if_pos (by omega)⟩

/-- A message to a channel is read back with its sender and its text, wherever the first secret
that stands for its key is in the list and the earlier ones fail a check; a payload whose checks no
configured or built-in key passes is the empty message; and for every payload, no read and no
decryption leaves what is read from. -/
theorem group_text_read_back (crypto : Crypto) :
    (∀ (m : GroupMessage) channelSecrets before secret after,
      channelSecrets ++ [defaultPublicChannelKeyHex] = before ++ secret :: after →
      (∀ s ∈ before, ¬PassesChecks crypto (m.encode crypto) s) →
      Yields crypto secret m.key →
      decodeGroupTextMessage crypto (m.encode crypto) channelSecrets =
        some { sender := m.sender, text := m.text }) ∧
      (∀ payload channelSecrets,
        (∀ s ∈ channelSecrets ++ [defaultPublicChannelKeyHex], ¬PassesChecks crypto payload s) →
        decodeGroupTextMessage crypto payload channelSecrets = some {}) ∧
      ∀ payload channelSecrets,
        ∃ message, decodeGroupTextMessage crypto payload channelSecrets = some message :=
  ⟨fun m _ _ _ _ hsplit hfails hkey => decode_encode crypto m hsplit hfails hkey,
    fun _ _ hfails => decode_of_fails crypto hfails, decode_total crypto⟩

/-! A message in the channel `#test`, with the values of the three functions there. -/

def testKey : List UInt8 :=
  [0x9C, 0xD8, 0xFC, 0xF2, 0x2A, 0x47, 0x33, 0x3B, 0x59, 0x1D, 0x96, 0xA2, 0xB8, 0x48, 0xB7, 0x3F]

def otherKey : List UInt8 :=
  [0x19, 0x2F, 0x44, 0x28, 0xEF, 0x8A, 0xAB, 0x13, 0x3F, 0x2F, 0xED, 0xEE, 0xDC, 0xD3, 0x79, 0x5C]

def testPlaintext : List UInt8 :=
  [0x00, 0xF1, 0x53, 0x65, 0x00, 0x61, 0x6C, 0x69, 0x63, 0x65, 0x3A, 0x20, 0x68, 0x69, 0x00, 0x00]

def testCiphertext : List UInt8 :=
  [0x1B, 0x16, 0xD8, 0x46, 0xB6, 0x3F, 0x63, 0x83, 0xEB, 0x08, 0xCD, 0x5A, 0x4E, 0x23, 0x2D, 0x73]

/-- SHA-256 of the two names and the three keys. -/
def testSha256 (message : List UInt8) : List UInt8 :=
  if message = encodeUTF8 "#test" then
    testKey ++ [0x45, 0x7B, 0x1B, 0xB1, 0xA3, 0xEA, 0x24, 0x53, 0xA8, 0x85, 0xF9, 0xE5, 0x78,
      0x77, 0x65, 0xB1]
  else if message = encodeUTF8 "#other" then
    otherKey ++ [0x1D, 0x91, 0xFA, 0x83, 0xF2, 0x2C, 0x66, 0x01, 0xA0, 0xD1, 0xBE, 0xC3, 0xA5,
      0x24, 0xBA, 0xEF]
  else if message = testKey then
    [0xD9, 0xF4, 0xE8, 0xFD, 0x5A, 0x72, 0x0B, 0x48, 0xBB, 0x4F, 0x9D, 0x31, 0xA0, 0xA9, 0x85,
      0x7F, 0x83, 0x89, 0xDF, 0x7C, 0x1F, 0xBF, 0x36, 0x47, 0x60, 0x81, 0xBB, 0x8D, 0x96, 0xCB,
      0x36, 0xD6]
  else if message = otherKey then
    [0x15, 0x2F, 0x65, 0xD9, 0x8D, 0xE8, 0x07, 0x89, 0x0E, 0x74, 0x36, 0x41, 0x26, 0xE2, 0x68,
      0x82, 0x2D, 0x42, 0xEE, 0x59, 0xC5, 0xA1, 0x92, 0xE6, 0xE6, 0x9C, 0x85, 0xF5, 0x38, 0xCB,
      0xA4, 0x80]
  else if message = defaultPublicChannelKey then
    [0x11, 0x55, 0xF1, 0x87, 0x0F, 0x91, 0x77, 0x86, 0x46, 0x97, 0x2B, 0x7B, 0xDE, 0x74, 0x7D,
      0x98, 0x9C, 0xF9, 0xF9, 0x54, 0x16, 0xB5, 0x08, 0x29, 0x66, 0x60, 0x36, 0x56, 0x33, 0x65,
      0x42, 0x4D]
  else List.replicate 32 0

/-- HMAC-SHA-256 of the ciphertext. -/
def testHmac (key message : List UInt8) : List UInt8 :=
  if key = channelSecret testKey ∧ message = testCiphertext then
    [0x61, 0x5B, 0xE1, 0x5A, 0x45, 0x37, 0x02, 0x2A, 0x98, 0xFB, 0xC5, 0x7E, 0x87, 0x65, 0x6B,
      0xC6, 0x14, 0x06, 0xF2, 0xAB, 0x7B, 0x91, 0x13, 0x2F, 0x2D, 0x95, 0xA8, 0x56, 0x1A, 0x8B,
      0xF2, 0x90]
  else List.replicate 32 0

/-- AES of the plaintext and of the ciphertext: the one for the other. -/
def testBlock (key block : List UInt8) : List UInt8 :=
  if key = testKey ∧ block = testPlaintext then testCiphertext
  else if key = testKey ∧ block = testCiphertext then testPlaintext
  else block

def testCrypto : Crypto where
  sha256 := testSha256
  hmacSha256 := testHmac
  encryptBlock := testBlock
  decryptBlock := testBlock
  length_sha256 message := by
    unfold testSha256
    split_ifs <;> rfl
  length_hmacSha256 key message := by
    unfold testHmac
    split_ifs <;> rfl
  length_encryptBlock key block h := by
    unfold testBlock
    split_ifs
    · rfl
    · rfl
    · exact h
  length_decryptBlock key block h := by
    unfold testBlock
    split_ifs
    · rfl
    · rfl
    · exact h
  decryptBlock_encryptBlock key block _ _ := by
    have hne : testCiphertext ≠ testPlaintext := by decide
    unfold testBlock
    by_cases hplain : key = testKey ∧ block = testPlaintext
    · rw [if_pos hplain, if_neg fun h => hne h.2, if_pos ⟨hplain.1, rfl⟩, hplain.2]
    · by_cases hcipher : key = testKey ∧ block = testCiphertext
      · rw [if_neg hplain, if_pos hcipher, if_pos ⟨hcipher.1, rfl⟩, hcipher.2]
      · rw [if_neg hplain, if_neg hcipher, if_neg hplain, if_neg hcipher]

def testMessage : GroupMessage where
  key := testKey
  timestamp := 1700000000
  flags := 0
  sender := "alice"
  text := "hi"
  length_key := rfl
  sanitize_sender := by decide +kernel
  sender_pos := by decide
  sender_le := by decide
  sender_free := by
    have hall : "alice".toList.all (fun c => c ≠ ':' ∧ c ≠ '[' ∧ c ≠ ']') = true := by
      decide +kernel
    exact fun c hc => of_decide_eq_true (List.all_eq_true.mp hall c hc)
  sanitize_text := by decide +kernel
  text_ne := by decide

theorem yields_test : Yields testCrypto " #test" testKey :=
  .name (by decide +kernel) (by decide +kernel) (by decide +kernel)

theorem yields_other : Yields testCrypto "#other" otherKey :=
  .name (by decide +kernel) (by decide +kernel) (by decide +kernel)

theorem yields_default : Yields testCrypto defaultPublicChannelKeyHex defaultPublicChannelKey :=
  .hex [] rfl (by decide +kernel)

/-- A blank secret and another channel come before the name of the channel; without it, there is no
message. -/
theorem group_text_read_back_test :
    decodeGroupTextMessage testCrypto (testMessage.encode testCrypto) [" ", "#other", " #test"] =
        some { sender := "alice", text := "hi" } ∧
      decodeGroupTextMessage testCrypto (testMessage.encode testCrypto) ["#other"] = some {} := by
  have hother : ¬PassesChecks testCrypto (testMessage.encode testCrypto) "#other" := by
    rintro ⟨key, hkey, hhash, -⟩
    rw [← yields_other.unique hkey] at hhash
    exact absurd hhash (by decide +kernel)
  have hdefault : ¬PassesChecks testCrypto (testMessage.encode testCrypto)
      defaultPublicChannelKeyHex := by
    rintro ⟨key, hkey, hhash, -⟩
    rw [← yields_default.unique hkey] at hhash
    exact absurd hhash (by decide +kernel)
  have hblank : ¬PassesChecks testCrypto (testMessage.encode testCrypto) " " := by
    rintro ⟨key, hkey, -⟩
    exact hkey.trimSpace_ne (by decide +kernel)
  obtain ⟨hread, hnone, -⟩ := group_text_read_back testCrypto
  constructor
  · refine hread testMessage _ [" ", "#other"] " #test" [defaultPublicChannelKeyHex] rfl ?_
      yields_test
    simpa using ⟨hblank, hother⟩
  · refine hnone _ _ ?_
    simpa using ⟨hother, hdefault⟩

end CartoLive.Theorems.GroupText
