import CartoLive.Api.PublicPackets
import CartoLive.Store.ChatEvents
import Mathlib.Data.List.Infix

/-!
# The chat pages

`publicChat` of `routes.go`: the messages of a window, newest first. A page leaves
out a message that repeats one it has come across: of the same packet, from the
same sender, or of the same text a short time apart. What a page has come across
is forgotten at its end.

Whether a character is a letter or a number is a parameter: the tables of Unicode
are not modelled.
-/

namespace CartoLive.Api

open CartoLive.Lib CartoLive.Go CartoLive.Live CartoLive.Store

def publicChatMaxLimit : Int := 400
def publicChatDefaultLimit : Int := 100
def publicChatMaxRawScan : Nat := 2500
def publicChatDedupeWindowMs : Int := publicHistoryMaxWindowMs
def publicChatTextDedupeWindowMs : Int := 10 * 60 * 1000

/-! ## Messages -/

/-- `PublicChatMessage`; `heardAt` is its field `At`. -/
structure PublicChatMessage where
  id : String
  heardAt : Int
  iata : String
  region : String
  sender : String
  text : String
  channelLabel : String
  payloadTypeName : String
  source : String
  anchor : Option PublicMessageAnchor
  routeIDs : List String
  endpointLabels : List String
  deriving DecidableEq

/-- `fallbackString`. -/
def fallbackString (value fallback : String) : String :=
  if trimSpace value = "" then fallback else trimSpace value

/-- `publicChatChannelLabel`. -/
def publicChatChannelLabel (payloadTypeName : String) : String :=
  if upperTrim payloadTypeName ∈ ["PLAIN_TEXT", "GROUP_TEXT"] then "Public"
  else fallbackString payloadTypeName "Unknown"

/-! ## Filters -/

/-- `publicChatFilters`. -/
structure PublicChatFilters where
  iata : String
  channel : String
  query : String
  deriving DecidableEq

/-- The query of a request for messages. -/
structure ChatRequest extends PageRequest where
  region : List String
  iata : List String
  channel : String
  q : String

/-- The characters of a text that fit into `maxLen` bytes. -/
def takeBytes : List Char → Nat → List Char
  | [], _ => []
  | c :: cs, maxLen => if maxLen < c.utf8Size then [] else c :: takeBytes cs (maxLen - c.utf8Size)

/-- `trimBounded`; a character that the bound cuts in two is left out. -/
def trimBounded (value : String) (maxLen : Nat) : String :=
  let value := trimSpace value
  if 0 < maxLen ∧ maxLen < byteLen value then String.ofList (takeBytes value.toList maxLen)
  else value

/-- `publicChatFiltersFromRequest`. -/
def publicChatFilters (request : ChatRequest) : PublicChatFilters :=
  { iata := firstUpperQuery (request.region ++ request.iata)
    channel := toLower (trimBounded request.channel 80)
    query := toLower (trimBounded request.q 120) }

/-- `publicChatSearchFields`. -/
def publicChatSearchFields (message : PublicChatMessage) : List String :=
  ([message.id, message.iata, message.region, message.sender, message.text, message.channelLabel,
      message.payloadTypeName, message.source] ++ message.routeIDs ++ message.endpointLabels ++
    (message.anchor.map PublicMessageAnchor.label).toList).filter fun field => trimSpace field ≠ ""

/-- `publicChatMatchesFilters`. -/
def publicChatMatchesFilters (message : PublicChatMessage) (filters : PublicChatFilters) : Bool :=
  !(filters.iata ≠ "" && toUpper message.iata ≠ filters.iata) &&
    !(filters.channel ≠ "" && toLower message.channelLabel ≠ filters.channel &&
      toLower message.payloadTypeName ≠ filters.channel) &&
    (filters.query = "" ||
      (publicChatSearchFields message).any fun field =>
        filters.query.toList <:+: (toLower field).toList)

/-! ## Repeated messages -/

/-- `publicChatVisibleDedupeText`. -/
def publicChatVisibleDedupeText (value : String) : List Char :=
  value.toList.filter fun r =>
    let n := r.toNat
    !(n < 0x20 || (0x7f ≤ n && n ≤ 0x9f) || (0x200b ≤ n && n ≤ 0x200f) ||
      (0x202a ≤ n && n ≤ 0x202e) || (0x2060 ≤ n && n ≤ 0x206f) || (0xfe00 ≤ n && n ≤ 0xfe0f) ||
      n = 0xfeff)

section Dedupe

variable (letterOrNumber : Char → Bool)

/-- `publicChatDisplayDedupeToken`. -/
def publicChatDisplayDedupeToken (value : String) : String :=
  let cleaned := publicChatVisibleDedupeText value
  let token := String.ofList (cleaned.map fun r => if letterOrNumber r then r else ' ')
  let token := toLower (" ".intercalate (fields token))
  if token ≠ "" then token else toLower (" ".intercalate (fields (String.ofList cleaned)))

/-- `publicChatLongEnoughForTextDedupe`. -/
def publicChatLongEnoughForTextDedupe (token : String) : Bool :=
  token ≠ "" &&
    (14 ≤ (token.toList.filter fun c => c ≠ ' ').length || 3 ≤ (fields token).length)

/-- `publicChatDedupeKey`. -/
def publicChatDedupeKey (raw : HistoryEvent) (message : PublicChatMessage) : String :=
  match (raw.edge.map EdgeEvent.packetHash).filter fun hash => trimSpace hash ≠ "",
      (raw.packet.map PacketObservation.packetHash).filter fun hash => trimSpace hash ≠ "" with
  | some hash, _ => "packet:" ++ toLower (trimSpace hash)
  | none, some hash => "packet:" ++ toLower (trimSpace hash)
  | none, none => message.id

/-- `publicChatDisplayDedupeKey`. -/
def publicChatDisplayDedupeKey (message : PublicChatMessage) : String :=
  let sender := publicChatDisplayDedupeToken letterOrNumber message.sender
  let text := publicChatDisplayDedupeToken letterOrNumber message.text
  if sender = "" ∨ text = "" then "" else sender ++ "|" ++ text

/-- `publicChatTextDedupeKey`. -/
def publicChatTextDedupeKey (message : PublicChatMessage) : String :=
  let text := publicChatDisplayDedupeToken letterOrNumber message.text
  if !publicChatLongEnoughForTextDedupe text then ""
  else
    let channel := publicChatDisplayDedupeToken letterOrNumber message.channelLabel
    let channel :=
      if channel = "" then publicChatDisplayDedupeToken letterOrNumber message.payloadTypeName
      else channel
    (if channel = "" then "message" else channel) ++ "|" ++ text

/-- `publicChatWithinWindow`. -/
def publicChatWithinWindow (a b windowMs : Int) : Bool :=
  let delta := a - b
  (if delta < 0 then -delta else delta) ≤ windowMs

/-- What a page has come across: `seenMessages`, `seenDisplayMessages` and
`seenTextMessages`, the last entry of a key being the first in its list. -/
structure ChatSeen where
  messages : List String
  display : List (String × Int)
  text : List (String × Int)

def ChatSeen.empty : ChatSeen := { messages := [], display := [], text := [] }

/-- A look-up in `seenDisplayMessages` or `seenTextMessages`, and what it stores. -/
def seenWithin (seen : List (String × Int)) (key : String) (heardAt windowMs : Int) :
    Option (List (String × Int)) :=
  if key = "" then some seen
  else
    match seen.find? fun entry => entry.1 = key with
    | some (_, previousAt) =>
      if publicChatWithinWindow previousAt heardAt windowMs then none
      else some ((key, heardAt) :: seen)
    | none => some ((key, heardAt) :: seen)

/-- The three look-ups of `publicChat`: whether the message is new, and what the page
has come across then. -/
def dedupe (raw : HistoryEvent) (message : PublicChatMessage) (seen : ChatSeen) :
    ChatSeen × Bool :=
  let messageKey := publicChatDedupeKey raw message
  if messageKey ≠ "" ∧ messageKey ∈ seen.messages then (seen, false)
  else
    let seen :=
      if messageKey ≠ "" then { seen with messages := messageKey :: seen.messages } else seen
    match seenWithin seen.display (publicChatDisplayDedupeKey letterOrNumber message)
        message.heardAt publicChatDedupeWindowMs with
    | none => (seen, false)
    | some display =>
      let seen := { seen with display }
      match seenWithin seen.text (publicChatTextDedupeKey letterOrNumber message) message.heardAt
          publicChatTextDedupeWindowMs with
      | none => (seen, false)
      | some text => ({ seen with text }, true)

end Dedupe

/-! ## The handler -/

/-- `PublicChatResponse`. -/
structure PublicChatResponse where
  serverTime : Int
  messages : List PublicChatMessage
  nextCursor : Option HistoryCursor
  window : PublicHistoryWindow
  deriving DecidableEq

/-- `publicChatRawPageSize`. -/
def publicChatRawPageSize (remaining : Nat) (filters : PublicChatFilters) : Nat :=
  if remaining = 0 then 0
  else if filters.channel = "" ∧ filters.query = "" then min (max remaining 200) 1000
  else min (max (remaining * 2) 400) 1200

/-- `publicChatNextCursorToken`. -/
def publicChatNextCursorToken (cursor : Option HistoryCursor) (exhausted : Bool)
    (matched limit scannedRaw : Nat) : Option HistoryCursor :=
  if exhausted then none
  else if limit ≤ matched ∨ publicChatMaxRawScan ≤ scannedRaw then cursor
  else none

/-- The variables of the loop of `publicChat`. -/
structure ChatScan where
  messages : List PublicChatMessage
  seen : ChatSeen
  nextCursor : Option HistoryCursor
  scannedRaw : Nat
  exhausted : Bool

section Env

variable [LiveEnv] (letterOrNumber : Char → Bool) (filter : PublicIATAFilter) (db : Database)
  (now fromMs toMs : Int) (limit : Nat) (filters : PublicChatFilters)

/-- `publicChatMessage`. -/
def publicChatMessage (raw : HistoryEvent) (observerLocations : PublicObserverLocationIndex)
    (index : PathHash3Index) : Option PublicChatMessage :=
  match raw.edge, raw.packet with
  | some edge, _ =>
    (publicRoutePulseFromEdge edge index).bind fun pulse =>
      (publicPacketPathFromPulse pulse).bind fun packet =>
        if trimSpace packet.messageText = "" then none
        else
          let messageID := if edge.observationID ≤ 0 then edge.id else edge.observationID
          some
            { id := "chat-routed-" ++ toString messageID
              heardAt := packet.heardAt
              iata := packet.iata
              region := packet.region
              sender := packet.messageSender
              text := packet.messageText
              channelLabel := publicChatChannelLabel packet.payloadTypeName
              payloadTypeName := packet.payloadTypeName
              source := "routed"
              anchor := pulse.messageAnchor
              routeIDs := packet.routeIDs
              endpointLabels := packet.endpointLabels }
  | none, some packet =>
    let activity := publicActivityFromPacket packet []
      (observerLocations.locationForPublicKey packet.observerPublicKey packet.iata)
    if trimSpace activity.messageText = "" then none
    else
      some
        { id := "chat-observer-" ++ toString packet.id
          heardAt := activity.heardAt
          iata := upperTrim activity.iata
          region := upperTrim activity.region
          sender := activity.messageSender
          text := activity.messageText
          channelLabel := publicChatChannelLabel activity.payloadTypeName
          payloadTypeName := activity.payloadTypeName
          source := "observer"
          anchor := activity.messageAnchor
          routeIDs := []
          endpointLabels := [] }
  | none, none => none

/-- The message of a row that is allowed, convertible and matches the filters. -/
def chatCandidate (raw : HistoryEvent) : Option PublicChatMessage :=
  if !filter.allows raw.iata then none
  else
    (publicChatMessage raw (buildPublicObserverLocationIndex db.nodes db.observers)
      (buildPublicPathHash3Index db.nodes db.observers)).filter fun message =>
        publicChatMatchesFilters message filters

/-- The loop over the rows of one read. -/
def scanChat : List HistoryEvent → ChatScan → ChatScan
  | [], s => s
  | raw :: rows, s =>
    let s := { s with nextCursor := some raw.cursor }
    match chatCandidate filter db filters raw with
    | none => scanChat rows s
    | some message =>
      let (seen, isNew) := dedupe letterOrNumber raw message s.seen
      let s := { s with seen }
      if !isNew then scanChat rows s
      else
        let s := { s with messages := s.messages ++ [message] }
        if limit ≤ s.messages.length then s else scanChat rows s

/-- What the loop asks for. -/
def chatQuery (cursor : Option HistoryCursor) (rawLimit : Nat) : HistoryQuery :=
  { fromMs, toMs, limit := rawLimit, cursor, newestFirst := false
    iata := filters.iata, payloadTypeName := "" }

/-- How many rows the loop reads next. -/
def chatRawLimit (s : ChatScan) : Nat :=
  min (publicChatRawPageSize (limit - s.messages.length) filters)
    (publicChatMaxRawScan - s.scannedRaw)

/-- A pass of the loop of `publicChat`, and whether it goes on. -/
def chatPass (s : ChatScan) : ChatScan × Bool :=
  let rawLimit := chatRawLimit limit filters s
  let rawEvents := db.publicChatEvents now (chatQuery fromMs toMs filters s.nextCursor rawLimit)
  let s := { s with scannedRaw := s.scannedRaw + rawEvents.length }
  if rawEvents.isEmpty then ({ s with nextCursor := none, exhausted := true }, false)
  else
    let s := scanChat letterOrNumber filter db limit filters rawEvents s
    if rawEvents.length < rawLimit ∨ limit ≤ s.messages.length then
      ({ s with
          exhausted := decide (rawEvents.length < rawLimit) && decide (s.messages.length < limit) },
        false)
    else (s, true)

/-- `publicChat`. Every pass but the last reads a row, so that the tables bound the
passes. -/
def publicChat (request : ChatRequest) : Option PublicChatResponse :=
  let (fromMs, toMs) := publicHistoryWindow request.fromQuery request.toQuery now
  let limit := pageLimit request.limitQuery publicChatDefaultLimit publicChatMaxLimit
  let filters := publicChatFilters request
  (runLoop (fun s => s.messages.length < limit && s.scannedRaw < publicChatMaxRawScan)
    (chatPass letterOrNumber filter db now fromMs toMs limit filters)
    (db.edges.length + db.observations.length + 1)
    { messages := [], seen := .empty, nextCursor := request.cursor, scannedRaw := 0
      exhausted := false }).map fun s =>
        { serverTime := now
          messages := s.messages
          nextCursor := publicChatNextCursorToken s.nextCursor s.exhausted s.messages.length limit
            s.scannedRaw
          window := { fromMs, toMs, count := s.messages.length } }

end Env

end CartoLive.Api
