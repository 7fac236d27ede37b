import CartoLive.Meshcore.Adverts

/-!
# Group text

`DecodeGroupTextMessage` of `packet_summary.go`: the keys that the configured
secrets stand for, the hash and MAC checks, the decryption block by block, and
the message in the plaintext. Every read is checked against the bounds of what is
read from, and has no result outside of them. SHA-256, HMAC-SHA-256 and AES are
functions of which only the lengths are known, and that decryption inverts
encryption.
-/

namespace CartoLive.Meshcore

open CartoLive.Go CartoLive.Lib

/-! ## Primitives -/

/-- `aes.BlockSize`. -/
def blockSize : Nat := 16

/-- The functions of `crypto/sha256`, `crypto/hmac` and `crypto/aes`. -/
structure Crypto where
  sha256 (message : List UInt8) : List UInt8
  hmacSha256 (key message : List UInt8) : List UInt8
  encryptBlock (key block : List UInt8) : List UInt8
  decryptBlock (key block : List UInt8) : List UInt8
  length_sha256 : ∀ message, (sha256 message).length = 32
  length_hmacSha256 : ∀ key message, (hmacSha256 key message).length = 32
  length_encryptBlock : ∀ key block, block.length = blockSize →
    (encryptBlock key block).length = blockSize
  length_decryptBlock : ∀ key block, block.length = blockSize →
    (decryptBlock key block).length = blockSize
  decryptBlock_encryptBlock : ∀ key block, key.length = blockSize → block.length = blockSize →
    decryptBlock key (encryptBlock key block) = block

/-! ## Text -/

/-- `text[first:last]`, in bytes. Like a read out of bounds, a cut through a
character has no result. -/
def textSlice (text : String) (first last : Nat) : Option String :=
  (slice (encodeUTF8 text) first last).bind decodeUTF8

/-- The characters that `SanitizeTextPayload` turns into blanks, drops or keeps. -/
def sanitizeChar (r : Char) : Option Char :=
  if r = '\n' ∨ r = '\r' ∨ r = '\t' then some ' '
  else if isControl r then none
  else some r

/-- `SanitizeTextPayload`. -/
def sanitizeTextPayload (value : String) : String :=
  let value := trimSpace (String.ofList (value.toList.rdropWhile fun c => c.toNat = 0))
  if value = "" then ""
  else
    let value := String.ofList (value.toList.filterMap sanitizeChar)
    " ".intercalate (fields value)

/-- `limitPublicMessageField`. -/
def limitPublicMessageField (value : String) (maxRunes : Nat) : String :=
  if value.toList.length ≤ maxRunes then value else String.ofList (value.toList.take maxRunes)

/-! ## Secrets -/

/-- The digits of the key of the public channel. -/
def defaultPublicChannelKeyHex : String := "8b3387e9c5cdea6ac9e5edbaa115cd72"

/-- `groupTextChannelSecrets`. -/
def groupTextChannelSecrets (channelSecrets : List String) : List String :=
  (channelSecrets.filter fun secret => trimSpace secret ≠ "") ++ [defaultPublicChannelKeyHex]

/-- A character that `hexCleaner` keeps. -/
def hexCleanerKeeps (c : Char) : Bool :=
  (48 ≤ c.toNat && c.toNat ≤ 57) || (97 ≤ c.toNat && c.toNat ≤ 102) ||
    (65 ≤ c.toNat && c.toNat ≤ 70)

/-- `hexCleaner.ReplaceAllString(s, "")`. -/
def hexCleaner (s : String) : String := String.ofList (s.toList.filter hexCleanerKeeps)

/-- `fromHexChar` of `encoding/hex`. -/
def fromHexChar (c : Char) : Option Nat :=
  if 48 ≤ c.toNat ∧ c.toNat ≤ 57 then some (c.toNat - 48)
  else if 97 ≤ c.toNat ∧ c.toNat ≤ 102 then some (c.toNat - 97 + 10)
  else if 65 ≤ c.toNat ∧ c.toNat ≤ 70 then some (c.toNat - 65 + 10)
  else none

/-- `hex.DecodeString`. -/
def decodeHex : List Char → Option (List UInt8)
  | [] => some []
  | [_] => none
  | high :: low :: rest =>
    (fromHexChar high).bind fun a => (fromHexChar low).bind fun b =>
      (decodeHex rest).map fun bytes => UInt8.ofNat (a * 16 + b) :: bytes

/-- The key of a trimmed secret in `normalizeChannelSecret`, if it has one. The
cleaned text is ASCII, so it has as many bytes as characters. -/
def channelKey (crypto : Crypto) (secret : String) : Option (Option (List UInt8)) :=
  let clean := toLower (hexCleaner secret)
  if 32 ≤ clean.toList.length ∧ clean.toList.length % 2 = 0 then
    match decodeHex clean.toList with
    | none => some none
    | some secretBytes =>
      if secretBytes.length < blockSize then some none
      else (slice secretBytes 0 blockSize).map some
  else (slice (crypto.sha256 (encodeUTF8 secret)) 0 blockSize).map some

/-- `normalizeChannelSecret`. Only the cases of one letter fold to the letters of
`public`, so `strings.EqualFold` compares in small letters. -/
def normalizeChannelSecret (crypto : Crypto) (secret packetChannelHash : String) :
    Option (List UInt8 × Bool) :=
  let secret := trimSpace secret
  if secret = "" then some ([], false)
  else
    let secret := if toLower secret = "public" then defaultPublicChannelKeyHex else secret
    (channelKey crypto secret).bind fun key =>
      match key with
      | none => some ([], false)
      | some key =>
        (crypto.sha256 key)[0]?.map fun first =>
          if encodeHex [first] ≠ packetChannelHash then ([], false) else (key, true)

/-! ## Messages -/

/-- The sender and the text of a sanitised message. -/
def splitSender (text : String) : Option DecodedPublicMessage :=
  match indexOf [0x3A, 0x20] (encodeUTF8 text) with
  | some colon =>
    if 0 < colon ∧ colon < 50 then
      (textSlice text 0 colon).bind fun potentialSender =>
        if potentialSender.toList.any (· ∈ [':', '[', ']']) then some { text }
        else
          (textSlice text (colon + 2) (encodeUTF8 text).length).map fun rest =>
            { sender := limitPublicMessageField (sanitizeTextPayload potentialSender) 80
              text := sanitizeTextPayload rest }
    else some { text }
  | none => some { text }

/-- `bytesIndexByte`. -/
def bytesIndexByte (value : List UInt8) (target : UInt8) : Option Nat :=
  value.findIdx? (· = target)

/-- The part of a message before its first NUL. -/
def cutNUL (messageBytes : List UInt8) : Option (List UInt8) :=
  match bytesIndexByte messageBytes 0 with
  | some nul => slice messageBytes 0 nul
  | none => some messageBytes

/-- `parseGroupTextPlaintext`. -/
def parseGroupTextPlaintext (plaintext : List UInt8) : Option DecodedPublicMessage :=
  if plaintext.length < 5 then some {}
  else
    ((slice plaintext 5 plaintext.length).bind cutNUL).bind fun messageBytes =>
      match decodeUTF8 messageBytes with
      | none => some {}
      | some message =>
        let text := sanitizeTextPayload message
        if text = "" then some {} else splitSender text

/-! ## Decryption -/

/-- `channelSecret`: a key in 32 bytes. -/
def channelSecret (key : List UInt8) : List UInt8 :=
  key.take 32 ++ List.replicate (32 - key.length) 0

/-- The loop of `decryptGroupText`: its turns are those with `offset < len(ciphertext)`. -/
def decryptBlocks (crypto : Crypto) (key ciphertext : List UInt8) : Option (List UInt8) :=
  ((List.range ((ciphertext.length + (blockSize - 1)) / blockSize)).mapM fun turn =>
    (slice ciphertext (turn * blockSize) (turn * blockSize + blockSize)).map
      (crypto.decryptBlock key)).map List.flatten

/-- `decryptGroupText`. -/
def decryptGroupText (crypto : Crypto) (ciphertext cipherMAC key : List UInt8) :
    Option DecodedPublicMessage :=
  let expected := crypto.hmacSha256 (channelSecret key) ciphertext
  if expected.length < 2 ∨ cipherMAC.length < 2 then some {}
  else
    (slice expected 0 2).bind fun expected =>
      (slice cipherMAC 0 2).bind fun cipherMAC =>
        if expected ≠ cipherMAC then some {}
        else if key.length ∉ [16, 24, 32] then some {}
        else
          (decryptBlocks crypto key ciphertext).bind fun plaintext =>
            if plaintext.length < 5 then some {} else parseGroupTextPlaintext plaintext

/-- The loop of `DecodeGroupTextMessage` over the secrets. -/
def tryChannelSecrets (crypto : Crypto) (channelHash : String) (cipherMAC ciphertext : List UInt8) :
    List String → Option DecodedPublicMessage
  | [] => some {}
  | secret :: rest =>
    (normalizeChannelSecret crypto secret channelHash).bind fun (key, ok) =>
      if !ok then tryChannelSecrets crypto channelHash cipherMAC ciphertext rest
      else
        (decryptGroupText crypto ciphertext cipherMAC key).bind fun message =>
          if message.text ≠ "" then some message
          else tryChannelSecrets crypto channelHash cipherMAC ciphertext rest

/-- `DecodeGroupTextMessage`. -/
def decodeGroupTextMessage (crypto : Crypto) (payload : List UInt8) (channelSecrets : List String) :
    Option DecodedPublicMessage :=
  if payload.length < 3 then some {}
  else
    (slice payload 0 1).bind fun first =>
      let channelHash := toLower (encodeHex first)
      (slice payload 1 3).bind fun cipherMAC =>
        (slice payload 3 payload.length).bind fun ciphertext =>
          if ciphertext.length = 0 ∨ ciphertext.length % blockSize ≠ 0 then some {}
          else
            tryChannelSecrets crypto channelHash cipherMAC ciphertext
              (groupTextChannelSecrets channelSecrets)

/-! ## Encoding -/

/-- A message to a channel, as it is put into a packet. -/
structure GroupMessage where
  key : List UInt8
  timestamp : UInt32
  flags : UInt8
  sender : String
  text : String
  length_key : key.length = blockSize
  sanitize_sender : sanitizeTextPayload sender = sender
  sender_pos : 1 ≤ (encodeUTF8 sender).length
  sender_le : (encodeUTF8 sender).length ≤ 49
  sender_free : ∀ c ∈ sender.toList, c ≠ ':' ∧ c ≠ '[' ∧ c ≠ ']'
  sanitize_text : sanitizeTextPayload text = text
  text_ne : text ≠ ""

namespace GroupMessage

/-- Whole blocks. -/
def zeroPad (bytes : List UInt8) : List UInt8 :=
  bytes ++ List.replicate ((blockSize - bytes.length % blockSize) % blockSize) 0

/-- What is encrypted: the time, the flags, and the text behind its sender. -/
def plaintext (m : GroupMessage) : List UInt8 :=
  zeroPad (littleEndianBytes m.timestamp ++ m.flags :: encodeUTF8 (m.sender ++ ": " ++ m.text))

variable (crypto : Crypto)

/-- The blocks of the plaintext, each encrypted. -/
def ciphertext (m : GroupMessage) : List UInt8 :=
  (List.range (m.plaintext.length / blockSize)).flatMap fun turn =>
    crypto.encryptBlock m.key ((m.plaintext.drop (turn * blockSize)).take blockSize)

/-- The payload of the packet. -/
def encode (m : GroupMessage) : List UInt8 :=
  (crypto.sha256 m.key).take 1 ++
    ((crypto.hmacSha256 (channelSecret m.key) (m.ciphertext crypto)).take 2 ++
      m.ciphertext crypto)

end GroupMessage

end CartoLive.Meshcore
