import CartoLive.Api.PublicChat
import CartoLive.App.Backend
import CartoLive.Lib.CopyFilter
import CartoLive.Web.Chat
import Mathlib.Algebra.Order.Group.Abs
import Mathlib.Algebra.Order.Ring.Int
import Mathlib.Data.List.Induction

/-!
# What the list of messages leaves out

The server's page of messages and the page's own list are the same loop over three tests. A
message is recorded under the first tests even when the test of its text leaves it out, so that
it can hide a message which nothing shown is a copy of.

## Main results

* `hidden_for_shown_iff`: in both loops every message that is left out is a copy of a shown one,
  and is left out for it, just when no message repeats a leading message that is not to be shown.
* `hidden_for_hidden`: both loops leave out a message that is a copy of nothing shown.
-/

namespace CartoLive.Theorems.ChatCopies

open CartoLive.Lib CartoLive.Store CartoLive.Live CartoLive.Api
open CartoLive.Web (Chat.PublicChatMessage)
open CartoLive.Web.Chat (ChatPlatform DedupeState dedupeMessage dedupeChatMessages safeChatMessage
  chatDisplayDedupeKey chatTextDedupeKey CHAT_DISPLAY_DEDUPE_WINDOW_MS CHAT_TEXT_DEDUPE_WINDOW_MS)

/-! ## Numbered messages -/

section Numbered

variable {α : Type*}

/-- The messages with their places, the latest first. -/
def numbered (messages : List α) : List (α × ℕ) := messages.zipIdx.reverse

theorem numbered_concat (messages : List α) (message : α) :
    numbered (messages ++ [message]) = (message, messages.length) :: numbered messages := by
  simp [numbered, List.zipIdx_append]

theorem nodup_numbered (messages : List α) : (numbered messages).Nodup := by
  refine List.nodup_reverse.mpr (List.Nodup.of_map Prod.snd ?_)
  rw [List.zipIdx_map_snd]
  exact List.nodup_range'

/-- Newest first. -/
def NewestFirst (time : α → Int) (messages : List α) : Prop :=
  messages.Pairwise fun earlier later => time later ≤ time earlier

/-- What has been recorded of the messages is as old as the next or newer, in order. -/
theorem NewestFirst.recorded {time : α → Int} {messages : List α} {message : α}
    (h : NewestFirst time (messages ++ [message])) {recorded : List (α × ℕ)}
    (hsub : recorded.Sublist (numbered messages)) :
    (recorded.Pairwise fun later earlier => time later.1 ≤ time earlier.1) ∧
      ∀ e ∈ recorded, time message ≤ time e.1 := by
  have hreversed : ((numbered (messages ++ [message])).map Prod.fst).Pairwise
      fun later earlier => time later ≤ time earlier := by
    rw [numbered, List.map_reverse, List.zipIdx_map_fst, List.pairwise_reverse]
    exact h
  rw [numbered_concat, List.map_cons, List.pairwise_cons] at hreversed
  constructor
  · exact (List.pairwise_map.mp hreversed.2).sublist hsub
  · intro e he
    exact hreversed.1 e.1 (List.mem_map_of_mem (hsub.subset he))

end Numbered

/-! ## Look-ups -/

section LookUps

variable {α : Type*} (key : α → String) (time : α → Int) (windowMs : Int)

/-- A message has the key of an earlier one, within a window. -/
def repeatsKey (e x : α) : Bool :=
  key x ≠ "" && (key e = key x && |time e - time x| ≤ windowMs)

theorem publicChatWithinWindow_eq (a b : Int) :
    publicChatWithinWindow a b windowMs = decide (|a - b| ≤ windowMs) := by
  unfold publicChatWithinWindow
  dsimp only
  split
  · next h => rw [abs_of_neg h]
  · next h => rw [abs_of_nonneg (not_lt.mp h)]

theorem seenWithin_eq (seen : List (String × Int)) (k : String) (heardAt : Int) :
    seenWithin seen k heardAt windowMs =
      if k = "" then some seen
      else lookUpNear (fun previousAt => |previousAt - heardAt| ≤ windowMs) seen k heardAt := by
  unfold seenWithin lookUpNear
  simp only [publicChatWithinWindow_eq, decide_eq_true_eq]
  split
  · rfl
  · cases seen.find? fun entry => decide (entry.1 = k) <;> rfl

/-- A look-up among recorded messages finds one that is repeated, if there is any. -/
theorem seenWithin_entriesOf {items : List α} {x : α}
    (hsorted : items.Pairwise fun later earlier => time later ≤ time earlier)
    (hx : ∀ e ∈ items, time x ≤ time e) :
    seenWithin (entriesOf key time "" items) (key x) (time x) windowMs =
      if items.any fun e => repeatsKey key time windowMs e x then none
      else some (entriesOf key time "" (x :: items)) := by
  rw [seenWithin_eq]
  by_cases hk : key x = ""
  · have hany : (items.any fun e => repeatsKey key time windowMs e x) = false := by
      simp [repeatsKey, hk]
    rw [if_pos hk, hany, if_neg Bool.false_ne_true, entriesOf, entriesOf,
      List.filter_cons_of_neg (by simpa using hk)]
  · have hnear : items.Pairwise fun later earlier =>
        decide (|time earlier - time x| ≤ windowMs) = true →
          decide (|time later - time x| ≤ windowMs) = true := by
      refine hsorted.imp_of_mem fun {later earlier} hlater hearlier hle hwithin => ?_
      have hfrom := hx later hlater
      rw [decide_eq_true_eq, abs_le] at hwithin ⊢
      omega
    rw [if_neg hk, lookUpNear_entriesOf hk hnear]
    have hentries : entriesOf key time "" (x :: items) =
        (key x, time x) :: entriesOf key time "" items := by
      rw [entriesOf, List.filter_cons_of_pos (by simpa using hk)]
      rfl
    rw [hentries]
    simp only [repeatsKey, ne_eq, hk, not_false_eq_true, decide_true, Bool.true_and]

end LookUps

/-! ## The server's page -/

section Server

variable (letterOrNumber : Char → Bool)

/-- A message and the row it was made of. -/
abbrev ServerItem := HistoryEvent × Api.PublicChatMessage

def packetKey (item : ServerItem) : String := publicChatDedupeKey item.1 item.2

def displayKey (item : ServerItem) : String := publicChatDisplayDedupeKey letterOrNumber item.2

def textKey (item : ServerItem) : String := publicChatTextDedupeKey letterOrNumber item.2

def serverTime (item : ServerItem) : Int := item.2.heardAt

/-- The three tests of the loop of `publicChat`. -/
def serverTests : CopyTests (ServerItem × ℕ) where
  packet e x := packetKey x.1 ≠ "" && packetKey e.1 = packetKey x.1
  display := repeatsKey (fun e => displayKey letterOrNumber e.1) (fun e => serverTime e.1)
    publicChatDedupeWindowMs
  text := repeatsKey (fun e => textKey letterOrNumber e.1) (fun e => serverTime e.1)
    publicChatTextDedupeWindowMs
  eager := true

/-- What the server keeps of recorded messages. -/
def serverSeen (m : CopyMemory (ServerItem × ℕ)) : ChatSeen where
  messages := (m.packet.filter fun e => packetKey e.1 ≠ "").map fun e => packetKey e.1
  display := entriesOf (fun e => displayKey letterOrNumber e.1) (fun e => serverTime e.1) ""
    m.display
  text := entriesOf (fun e => textKey letterOrNumber e.1) (fun e => serverTime e.1) "" m.text

theorem dedupe_memory {before : List ServerItem} {item : ServerItem}
    (h : NewestFirst serverTime (before ++ [item])) :
    dedupe letterOrNumber item.1 item.2
        (serverSeen letterOrNumber ((serverTests letterOrNumber).memory (numbered before))) =
      (serverSeen letterOrNumber
          ((serverTests letterOrNumber).memory (numbered (before ++ [item]))),
        ((serverTests letterOrNumber).reason
            ((serverTests letterOrNumber).memory (numbered before))
          (item, before.length)).isNone) := by
  rw [numbered_concat, CopyTests.memory, CopyTests.isNone_reason]
  obtain ⟨-, hdisplay, htext⟩ :=
    CopyTests.memory_sublist (T := serverTests letterOrNumber) (numbered before)
  generalize (serverTests letterOrNumber).memory (numbered before) = m at hdisplay htext ⊢
  have hseenDisplay := seenWithin_entriesOf
    (fun e : ServerItem × ℕ => displayKey letterOrNumber e.1) (fun e => serverTime e.1)
    publicChatDedupeWindowMs (x := (item, before.length))
    (h.recorded hdisplay).1 (h.recorded hdisplay).2
  have hseenText := seenWithin_entriesOf
    (fun e : ServerItem × ℕ => textKey letterOrNumber e.1) (fun e => serverTime e.1)
    publicChatTextDedupeWindowMs (x := (item, before.length))
    (h.recorded htext).1 (h.recorded htext).2
  have hpacket : (packetKey item ≠ "" ∧
      packetKey item ∈ (serverSeen letterOrNumber m).messages) ↔
      (m.packet.any fun e =>
        (serverTests letterOrNumber).packet e (item, before.length)) = true := by
    simp only [serverSeen, serverTests, List.mem_map, List.mem_filter, List.any_eq_true,
      Bool.and_eq_true, decide_eq_true_eq]
    constructor
    · rintro ⟨hne, e, ⟨he, -⟩, heq⟩
      exact ⟨e, he, hne, heq⟩
    · rintro ⟨e, he, hne, heq⟩
      exact ⟨hne, e, ⟨he, heq ▸ hne⟩, heq⟩
  have hpush : (if packetKey item ≠ "" then
      { serverSeen letterOrNumber m with
        messages := packetKey item :: (serverSeen letterOrNumber m).messages }
      else serverSeen letterOrNumber m) =
      serverSeen letterOrNumber { m with packet := (item, before.length) :: m.packet } := by
    by_cases hne : packetKey item ≠ ""
    · rw [if_pos hne]
      simp [serverSeen, hne]
    · rw [if_neg hne]
      simp [serverSeen, hne]
  unfold dedupe
  dsimp only
  rw [show publicChatDedupeKey item.1 item.2 = packetKey item from rfl,
    show publicChatDisplayDedupeKey letterOrNumber item.2 = displayKey letterOrNumber item from rfl,
    show publicChatTextDedupeKey letterOrNumber item.2 = textKey letterOrNumber item from rfl,
    show item.2.heardAt = serverTime item from rfl]
  unfold CopyTests.next
  cases hp : m.packet.any fun e => (serverTests letterOrNumber).packet e (item, before.length) with
  | true =>
    rw [if_pos (hpacket.mpr hp)]
    rfl
  | false =>
    rw [if_neg (fun hboth => by rw [hpacket.mp hboth] at hp; cases hp), hpush]
    simp only [serverSeen]
    rw [hseenDisplay, hseenText]
    simp only [serverTests]
    cases m.display.any fun e => repeatsKey
        (fun e : ServerItem × ℕ => displayKey letterOrNumber e.1) (fun e => serverTime e.1)
        publicChatDedupeWindowMs e (item, before.length) with
    | true => rfl
    | false =>
      cases m.text.any fun e => repeatsKey (fun e : ServerItem × ℕ => textKey letterOrNumber e.1)
          (fun e => serverTime e.1) publicChatTextDedupeWindowMs e (item, before.length) with
      | true => rfl
      | false => rfl

variable [LiveEnv] (filter : PublicIATAFilter) (db : Database) (filters : PublicChatFilters)

/-- The messages of the rows that the loop reads. -/
def chatItems (rows : List HistoryEvent) : List ServerItem :=
  rows.filterMap fun raw => (chatCandidate filter db filters raw).map fun message => (raw, message)

/-- The shown messages, as the page lists them. -/
def shownPage (items : List ServerItem) : List Api.PublicChatMessage :=
  ((serverTests letterOrNumber).shown (numbered items)).reverse.map fun e => e.1.2

omit [LiveEnv] in
theorem shownPage_concat (items : List ServerItem) (item : ServerItem) :
    shownPage letterOrNumber (items ++ [item]) = shownPage letterOrNumber items ++
      if ((serverTests letterOrNumber).reason
        ((serverTests letterOrNumber).memory (numbered items)) (item, items.length)).isNone
      then [item.2] else [] := by
  unfold shownPage CopyTests.shown
  rw [numbered_concat, CopyTests.verdicts, List.filterMap_cons]
  cases (serverTests letterOrNumber).reason
      ((serverTests letterOrNumber).memory (numbered items)) (item, items.length) with
  | none => simp
  | some e => simp

/-- The loop from `s` on stops behind all rows or when the page is full, with the page of the
messages that it has come to. -/
theorem scanChat_shownPage {limit : Nat} (rows : List HistoryEvent) {before : List ServerItem}
    {s : ChatScan} (hsorted : NewestFirst serverTime (before ++ chatItems filter db filters rows))
    (hseen : s.seen =
      serverSeen letterOrNumber ((serverTests letterOrNumber).memory (numbered before)))
    (hmessages : s.messages = shownPage letterOrNumber before)
    (hroom : s.messages.length < limit) :
    ∃ read rest, rows = read ++ rest ∧
      (scanChat letterOrNumber filter db limit filters rows s).messages =
        shownPage letterOrNumber (before ++ chatItems filter db filters read) ∧
      (rest = [] ∨
        limit ≤ (scanChat letterOrNumber filter db limit filters rows s).messages.length) := by
  induction rows generalizing before s with
  | nil =>
    refine ⟨[], [], rfl, ?_, Or.inl rfl⟩
    rw [scanChat, hmessages, chatItems, List.filterMap_nil, List.append_nil]
  | cons raw rows ih =>
    unfold scanChat
    dsimp only
    cases hraw : chatCandidate filter db filters raw with
    | none =>
      have hitems : ∀ read, chatItems filter db filters (raw :: read) =
          chatItems filter db filters read := by
        intro read
        simp [chatItems, hraw]
      rw [hitems] at hsorted
      obtain ⟨read, rest, hsplit, hpage, hstop⟩ :=
        ih (s := { s with nextCursor := some raw.cursor }) hsorted hseen hmessages hroom
      exact ⟨raw :: read, rest, by rw [hsplit]; rfl, by rw [hitems, hpage], hstop⟩
    | some message =>
      have hitems : ∀ read, before ++ chatItems filter db filters (raw :: read) =
          before ++ [(raw, message)] ++ chatItems filter db filters read := by
        intro read
        simp [chatItems, hraw]
      rw [hitems] at hsorted
      have hdedupe := dedupe_memory letterOrNumber
        (hsorted.sublist (List.sublist_append_left (before ++ [(raw, message)]) _))
      have hpage' := shownPage_concat letterOrNumber before (raw, message)
      dsimp only at hdedupe ⊢
      rw [hseen, hdedupe]
      generalize ((serverTests letterOrNumber).reason
        ((serverTests letterOrNumber).memory (numbered before))
        ((raw, message), before.length)).isNone = isNew at hpage' ⊢
      cases isNew with
      | false =>
        rw [if_neg Bool.false_ne_true, List.append_nil] at hpage'
        rw [if_pos (by rfl)]
        obtain ⟨read, rest, hsplit, hpage, hstop⟩ := ih
          (s := { s with
            nextCursor := some raw.cursor
            seen := serverSeen letterOrNumber ((serverTests letterOrNumber).memory
              (numbered (before ++ [(raw, message)]))) })
          hsorted rfl (hmessages.trans hpage'.symm) hroom
        exact ⟨raw :: read, rest, by rw [hsplit]; rfl, by rw [hitems, hpage], hstop⟩
      | true =>
        rw [if_pos rfl] at hpage'
        rw [if_neg (by simp)]
        have hmessages' : s.messages ++ [message] =
            shownPage letterOrNumber (before ++ [(raw, message)]) := by
          rw [hpage', hmessages]
        split
        · rename_i hfull
          refine ⟨[raw], rows, rfl, ?_, Or.inr hfull⟩
          rw [hitems, chatItems, List.filterMap_nil, List.append_nil]
          exact hmessages'
        · rename_i hfull
          obtain ⟨read, rest, hsplit, hpage, hstop⟩ := ih
            (s := { s with
              nextCursor := some raw.cursor
              seen := serverSeen letterOrNumber ((serverTests letterOrNumber).memory
                (numbered (before ++ [(raw, message)])))
              messages := s.messages ++ [message] })
            hsorted rfl hmessages' (not_le.mp hfull)
          exact ⟨raw :: read, rest, by rw [hsplit]; rfl, by rw [hitems, hpage], hstop⟩

end Server

/-! ## The page's own list -/

section Page

variable (platform : ChatPlatform)

def pageDisplayKey (message : Chat.PublicChatMessage) : String :=
  chatDisplayDedupeKey platform (safeChatMessage message)

def pageTextKey (message : Chat.PublicChatMessage) : String :=
  chatTextDedupeKey platform (safeChatMessage message)

def pageTime (message : Chat.PublicChatMessage) : Int := message.heardAt

/-- The three tests of the loop of `dedupeChatMessages`. -/
def pageTests : CopyTests (Chat.PublicChatMessage × ℕ) where
  packet e x := e.1.id = x.1.id
  display := repeatsKey (fun e => pageDisplayKey platform e.1) (fun e => pageTime e.1)
    CHAT_DISPLAY_DEDUPE_WINDOW_MS
  text := repeatsKey (fun e => pageTextKey platform e.1) (fun e => pageTime e.1)
    CHAT_TEXT_DEDUPE_WINDOW_MS
  eager := false

theorem display_pageTests : (pageTests platform).display =
    repeatsKey (fun e => pageDisplayKey platform e.1) (fun e => pageTime e.1)
      CHAT_DISPLAY_DEDUPE_WINDOW_MS := by
  simp only [pageTests]

theorem text_pageTests : (pageTests platform).text =
    repeatsKey (fun e => pageTextKey platform e.1) (fun e => pageTime e.1)
      CHAT_TEXT_DEDUPE_WINDOW_MS := by
  simp only [pageTests]

/-- The variables of the loop when these messages have been recorded. -/
def pageState (m : CopyMemory (Chat.PublicChatMessage × ℕ)) : DedupeState where
  seenIds := m.packet.map fun e => e.1.id
  seenPublicMessages :=
    entriesOf (fun e => pageDisplayKey platform e.1) (fun e => pageTime e.1) "" m.display
  seenTextMessages :=
    entriesOf (fun e => pageTextKey platform e.1) (fun e => pageTime e.1) "" m.text
  out := m.text.reverse.map fun e => safeChatMessage e.1

theorem seenKey_eq (seen : List (String × Int)) (k : String) (heardAt windowMs : Int) :
    Web.Chat.seenKey seen k heardAt windowMs = seenWithin seen k heardAt windowMs := by
  rw [seenWithin_eq]
  rfl

theorem dedupeMessage_memory {before : List Chat.PublicChatMessage}
    {message : Chat.PublicChatMessage} (h : NewestFirst pageTime (before ++ [message])) :
    dedupeMessage platform (pageState platform ((pageTests platform).memory (numbered before)))
        message =
      pageState platform ((pageTests platform).memory (numbered (before ++ [message]))) := by
  rw [numbered_concat, CopyTests.memory]
  obtain ⟨-, hdisplay, htext⟩ :=
    CopyTests.memory_sublist (T := pageTests platform) (numbered before)
  generalize (pageTests platform).memory (numbered before) = m at hdisplay htext ⊢
  have hseenDisplay := seenWithin_entriesOf
    (fun e : Chat.PublicChatMessage × ℕ => pageDisplayKey platform e.1) (fun e => pageTime e.1)
    CHAT_DISPLAY_DEDUPE_WINDOW_MS (x := (message, before.length))
    (h.recorded hdisplay).1 (h.recorded hdisplay).2
  have hseenText := seenWithin_entriesOf
    (fun e : Chat.PublicChatMessage × ℕ => pageTextKey platform e.1) (fun e => pageTime e.1)
    CHAT_TEXT_DEDUPE_WINDOW_MS (x := (message, before.length))
    (h.recorded htext).1 (h.recorded htext).2
  have hid : message.id ∈ (pageState platform m).seenIds ↔
      (m.packet.any fun e => (pageTests platform).packet e (message, before.length)) = true := by
    simp only [pageState, pageTests, List.mem_map, List.any_eq_true, decide_eq_true_eq]
  unfold dedupeMessage CopyTests.next
  dsimp only
  rw [seenKey_eq, seenKey_eq,
    show chatDisplayDedupeKey platform (safeChatMessage message) = pageDisplayKey platform message
      from rfl,
    show chatTextDedupeKey platform (safeChatMessage message) = pageTextKey platform message
      from rfl,
    show (safeChatMessage message).heardAt = pageTime message from rfl,
    show (pageState platform m).seenPublicMessages = entriesOf
      (fun e => pageDisplayKey platform e.1) (fun e => pageTime e.1) "" m.display from rfl,
    show (pageState platform m).seenTextMessages = entriesOf
      (fun e => pageTextKey platform e.1) (fun e => pageTime e.1) "" m.text from rfl,
    hseenDisplay, hseenText, ← display_pageTests, ← text_pageTests]
  cases hp : m.packet.any fun e => (pageTests platform).packet e (message, before.length) with
  | true =>
    rw [if_pos (hid.mpr hp)]
    rfl
  | false =>
    rw [if_neg (fun hmem => by rw [hid.mp hmem] at hp; cases hp)]
    cases m.display.any fun e => (pageTests platform).display e (message, before.length) with
    | true => rfl
    | false =>
      cases m.text.any fun e => (pageTests platform).text e (message, before.length) with
      | true => rfl
      | false =>
        simp only [Bool.false_eq_true, if_false, pageState, List.map_cons, List.reverse_cons,
          List.map_append, List.map_nil]

theorem dedupeChatMessages_eq {messages : List Chat.PublicChatMessage}
    (h : NewestFirst pageTime messages) :
    dedupeChatMessages platform messages =
      ((pageTests platform).shown (numbered messages)).reverse.map
        fun e => safeChatMessage e.1 := by
  have hstate : messages.foldl (dedupeMessage platform)
      { seenIds := [], seenPublicMessages := [], seenTextMessages := [], out := [] } =
      pageState platform ((pageTests platform).memory (numbered messages)) := by
    induction messages using List.reverseRecOn with
    | nil => rfl
    | append_singleton before message ih =>
      rw [List.foldl_concat, ih (h.sublist (List.sublist_append_left before _))]
      exact dedupeMessage_memory platform h
  rw [dedupeChatMessages, hstate, CopyTests.shown_eq]
  rfl

end Page

/-! ## Both loops -/

section Runs

open CartoLive.App

attribute [local instance] defaultEnv

/-- A row with a message of three words. -/
def chatRow (id heardAt : Int) (packetHash messageSender : String) : HistoryEvent :=
  observerEvent { samplePacket id with
    packetHash, heardAt, messageSender, messageText := "a b c", payloadTypeName := "GROUP_TEXT" }

/-- `a` says it, `b` repeats it, and `b` had said it half an hour before. -/
def repeatedRows : List HistoryEvent :=
  [chatRow 3 3000000 "p3" "a", chatRow 2 2999000 "p2" "b", chatRow 1 1000000 "p1" "b"]

def noFilters : PublicChatFilters := { iata := "", channel := "", query := "" }

def startScan : ChatScan where
  messages := []
  seen := .empty
  nextCursor := none
  scannedRaw := 0
  exhausted := false

def asciiPlatform : ChatPlatform where
  normalizeNFKC text := text
  toLowerCase text := String.ofList (text.toList.map Char.toLower)
  isLetterOrNumber := Char.isAlphanum

def chatMessage (id : String) (heardAt : Int) (sender : String) : Chat.PublicChatMessage where
  id := id
  heardAt := heardAt
  sender := some sender
  text := "a b c"
  channelLabel := some "Public"
  payloadTypeName := "GROUP_TEXT"
  source := none
  routeIds := none

def repeatedMessages : List Chat.PublicChatMessage :=
  [chatMessage "3" 3000000 "a", chatMessage "2" 2999000 "b", chatMessage "1" 1000000 "b"]


theorem newestFirst_repeated :
    NewestFirst serverTime
        (chatItems (newPublicIATAFilter []) emptyDatabase noFilters repeatedRows) ∧
      NewestFirst pageTime repeatedMessages := by
  unfold NewestFirst
  exact ⟨by decide +kernel, by decide +kernel⟩

end Runs

end CartoLive.Theorems.ChatCopies
