import CartoLive.Lib.CopyFilter
import CartoLive.Live.Redaction
import CartoLive.Web.Sanitize
import Mathlib.Algebra.GroupWithZero.Nat

/-!
# The page's list of messages

`chat.ts`: what the page shows of a message, and the messages that it leaves out because it has
come across a copy of them. The tables of Unicode are given: the compatibility form of a text,
its small letters, and which characters are letters or numbers.
-/

namespace CartoLive.Web.Chat

open CartoLive.Lib CartoLive.Live

def CHAT_DISPLAY_DEDUPE_WINDOW_MS : Int := 24 * 60 * 60000
def CHAT_TEXT_DEDUPE_WINDOW_MS : Int := 10 * 60000

structure ChatPlatform where
  normalizeNFKC : String → String
  toLowerCase : String → String
  isLetterOrNumber : Char → Bool

/-- `PublicChatMessage`; `heardAt` is its field `at`. -/
structure PublicChatMessage where
  id : String
  heardAt : Int
  sender : Option String
  text : String
  channelLabel : Option String
  payloadTypeName : String
  source : Option String
  routeIds : Option (List String)
  deriving DecidableEq

/-! ## Safe texts -/

/-- Every run of such characters becomes one blank. -/
def replaceRuns (p : Char → Bool) (text : String) : String :=
  String.ofList ((text.toList.splitBy fun a b => p a == p b).flatMap fun run =>
    if run.all p then [' '] else run)

/-- A text of an expression with the flag `i`. -/
def ignoreCase (text : String) : Regex Char :=
  text.toList.foldr (fun letter r => .seq (.one fun c => c = letter || c = letter.toUpper) r) .empty

def HEX_TOKEN_RE : Regex Char :=
  .seq .boundary <|
  .seq (.optional (ignoreCase "0x")) <|
  .seq (.atLeast 16 (.one isHexDigit)) .boundary

def BASE64_TOKEN_RE : Regex Char := publicBase64RE

def PATH_HEX_RE : Regex Char :=
  .seq .boundary <|
  .seq (.atLeast 5 (.seq (.times (.one isHexDigit) 2)
    (.one fun c => c = ':' || c = '-' || isJsSpace c))) <|
  .seq (.times (.one isHexDigit) 2) .boundary

def SECRET_PAIR_RE : Regex Char :=
  .seq .boundary <|
  .seq (anyOf (["broker", "resolver", "debug", "secret", "token", "key", "hash", "payload",
    "path"].map ignoreCase)) <|
  .seq (.star (.one fun c => isWordChar c || c = '.' || c = '-')) <|
  .seq (.star (.one isJsSpace)) <|
  .seq (.one fun c => c = ':' || c = '=') <|
  .seq (.star (.one isJsSpace)) (.atLeast 1 (.one fun c => !isJsSpace c))

/-- The characters of `CONTROL_TOKEN_RE`. -/
def isControlToken (c : Char) : Bool :=
  let n := c.toNat
  n ≤ 0x1f || (0x7f ≤ n && n ≤ 0x9f) || (0x200b ≤ n && n ≤ 0x200f) ||
    (0x202a ≤ n && n ≤ 0x202e) || (0x2060 ≤ n && n ≤ 0x206f) || (0xfe00 ≤ n && n ≤ 0xfe0f) ||
    n = 0xfeff

def safeChatText (value : Option String) (fallback : String) : String :=
  let text := trim (replaceRuns isJsSpace (value.getD fallback))
  if text = "" then fallback
  else
    let text := replaceAllString SECRET_PAIR_RE text "[redacted]"
    let text := replaceAllString PATH_HEX_RE text "[redacted path]"
    let text := replaceAllString HEX_TOKEN_RE text "[redacted id]"
    replaceAllString BASE64_TOKEN_RE text "[redacted key]"

def safeChatMessage (message : PublicChatMessage) : PublicChatMessage :=
  { message with
    sender := some (safeChatText message.sender "Unknown")
    text := safeChatText (some message.text) ""
    channelLabel := some (safeChatText message.channelLabel "Public")
    payloadTypeName := safeChatText (some message.payloadTypeName) "Message"
    source := none
    routeIds := none }

/-! ## Keys of messages -/

section Keys

variable (platform : ChatPlatform)

def normalizeDisplayToken (value : Option String) : String :=
  let cleaned := String.ofList
    ((platform.normalizeNFKC (safeChatText value "")).toList.filter fun c => !isControlToken c)
  let alnumToken := trim (replaceRuns isJsSpace (platform.toLowerCase
    (replaceRuns (fun c => !platform.isLetterOrNumber c) cleaned)))
  if alnumToken ≠ "" then alnumToken
  else trim (replaceRuns isJsSpace (platform.toLowerCase cleaned))

/-- The `length` of a text: a character beyond U+FFFF is a pair of surrogates. -/
def utf16Length (cs : List Char) : Nat := (cs.map fun c => if c.toNat < 0x10000 then 1 else 2).sum

def isLongEnoughForTextDedupe (token : String) : Bool :=
  token ≠ "" &&
    (14 ≤ utf16Length (token.toList.filter fun c => !isJsSpace c) ||
      3 ≤ ((token.toList.splitOnP isJsSpace).filter fun word => word ≠ []).length)

def chatDisplayDedupeKey (message : PublicChatMessage) : String :=
  let sender := normalizeDisplayToken platform message.sender
  let text := normalizeDisplayToken platform (some message.text)
  if sender = "" ∨ text = "" then "" else sender ++ "|" ++ text

def chatTextDedupeKey (message : PublicChatMessage) : String :=
  let text := normalizeDisplayToken platform (some message.text)
  if !isLongEnoughForTextDedupe text then ""
  else
    let channel := normalizeDisplayToken platform message.channelLabel
    let channel :=
      if channel ≠ "" then channel
      else normalizeDisplayToken platform (some message.payloadTypeName)
    (if channel ≠ "" then channel else "message") ++ "|" ++ text

/-! ## Repeated messages -/

def chatWithinWindow (a b windowMs : Int) : Bool := |a - b| ≤ windowMs

/-- The variables of the loop of `dedupeChatMessages`. -/
structure DedupeState where
  seenIds : List String
  seenPublicMessages : List (String × Int)
  seenTextMessages : List (String × Int)
  out : List PublicChatMessage

/-- A look-up in one of the maps, and what it stores. -/
def seenKey (seen : List (String × Int)) (key : String) (heardAt windowMs : Int) :
    Option (List (String × Int)) :=
  if key = "" then some seen
  else lookUpNear (fun previousAt => chatWithinWindow previousAt heardAt windowMs) seen key heardAt

/-- The body of the loop. -/
def dedupeMessage (state : DedupeState) (message : PublicChatMessage) : DedupeState :=
  if message.id ∈ state.seenIds then state
  else
    let safe := safeChatMessage message
    match seenKey state.seenPublicMessages (chatDisplayDedupeKey platform safe) safe.heardAt
        CHAT_DISPLAY_DEDUPE_WINDOW_MS with
    | none => state
    | some seenPublicMessages =>
      let state := { state with seenPublicMessages }
      match seenKey state.seenTextMessages (chatTextDedupeKey platform safe) safe.heardAt
          CHAT_TEXT_DEDUPE_WINDOW_MS with
      | none => state
      | some seenTextMessages =>
        { state with
          seenTextMessages
          seenIds := message.id :: state.seenIds
          out := state.out ++ [safe] }

def dedupeChatMessages (messages : List PublicChatMessage) : List PublicChatMessage :=
  (messages.foldl (dedupeMessage platform)
    { seenIds := [], seenPublicMessages := [], seenTextMessages := [], out := [] }).out

end Keys

end CartoLive.Web.Chat
