import CartoLive.Api.PublicChat
import CartoLive.App.Backend
import CartoLive.Store.Labels

/-!
# Following the chat cursor

A client that follows the cursors of `publicChat` examines every chat row of its
window once, in descending order of time, type and identifier. Each page accounts
for the rows it examines: a row with a message that the request asks for is on the
page, or repeats a row examined before it for the same page
(`chat_examines_all`).
-/

namespace CartoLive.Theorems.ChatPages

open CartoLive.Lib CartoLive.Go CartoLive.Live CartoLive.Store CartoLive.Api

section Env

variable [LiveEnv] (letterOrNumber : Char → Bool) (filter : PublicIATAFilter) (db : Database)
  (filters : PublicChatFilters)

/-! ## Pages and the rows they account for -/

/-- A message repeats an earlier one: it is of the same packet, or shows the same
sender and text within the one window, or the same text within the other. -/
def Repeats (raw : HistoryEvent) (message : PublicChatMessage) (earlierRaw : HistoryEvent)
    (earlier : PublicChatMessage) : Prop :=
  (publicChatDedupeKey raw message ≠ "" ∧
      publicChatDedupeKey earlierRaw earlier = publicChatDedupeKey raw message) ∨
    (publicChatDisplayDedupeKey letterOrNumber message ≠ "" ∧
      publicChatDisplayDedupeKey letterOrNumber earlier =
        publicChatDisplayDedupeKey letterOrNumber message ∧
      publicChatWithinWindow earlier.heardAt message.heardAt publicChatDedupeWindowMs = true) ∨
    (publicChatTextDedupeKey letterOrNumber message ≠ "" ∧
      publicChatTextDedupeKey letterOrNumber earlier =
        publicChatTextDedupeKey letterOrNumber message ∧
      publicChatWithinWindow earlier.heardAt message.heardAt publicChatTextDedupeWindowMs = true)

/-- A page accounts for the rows examined for it: going through them, a row that has
no message for the request is passed over, a message is on the page or repeats one
of the rows examined `before`. -/
inductive Accounts : List HistoryEvent → List HistoryEvent → List PublicChatMessage → Prop
  | nil (before) : Accounts before [] []
  | passedOver {before raw rows page} (h : chatCandidate filter db filters raw = none)
      (rest : Accounts (before ++ [raw]) rows page) : Accounts before (raw :: rows) page
  | shown {before raw rows page message}
      (h : chatCandidate filter db filters raw = some message)
      (rest : Accounts (before ++ [raw]) rows page) : Accounts before (raw :: rows) (message :: page)
  | repeated {before raw rows page message earlierRaw earlier}
      (h : chatCandidate filter db filters raw = some message) (hmem : earlierRaw ∈ before)
      (hearlier : chatCandidate filter db filters earlierRaw = some earlier)
      (hrepeats : Repeats letterOrNumber raw message earlierRaw earlier)
      (rest : Accounts (before ++ [raw]) rows page) : Accounts before (raw :: rows) page

/-- What a page has come across are keys of rows examined for it. -/
structure SeenOf (rows : List HistoryEvent) (seen : ChatSeen) : Prop where
  messages : ∀ key ∈ seen.messages, ∃ raw ∈ rows, ∃ message,
    chatCandidate filter db filters raw = some message ∧ publicChatDedupeKey raw message = key
  display : ∀ entry ∈ seen.display, ∃ raw ∈ rows, ∃ message,
    chatCandidate filter db filters raw = some message ∧
      (publicChatDisplayDedupeKey letterOrNumber message, message.heardAt) = entry
  text : ∀ entry ∈ seen.text, ∃ raw ∈ rows, ∃ message,
    chatCandidate filter db filters raw = some message ∧
      (publicChatTextDedupeKey letterOrNumber message, message.heardAt) = entry

variable {letterOrNumber filter db filters}

theorem seenOf_empty : SeenOf letterOrNumber filter db filters [] .empty where
  messages _ h := by cases h
  display _ h := by cases h
  text _ h := by cases h

/-- More rows have been examined. -/
theorem SeenOf.append {rows : List HistoryEvent} {seen : ChatSeen}
    (h : SeenOf letterOrNumber filter db filters rows seen) (more : List HistoryEvent) :
    SeenOf letterOrNumber filter db filters (rows ++ more) seen where
  messages key hkey := by
    obtain ⟨raw, hraw, rest⟩ := h.messages key hkey
    exact ⟨raw, List.mem_append_left _ hraw, rest⟩
  display entry hentry := by
    obtain ⟨raw, hraw, rest⟩ := h.display entry hentry
    exact ⟨raw, List.mem_append_left _ hraw, rest⟩
  text entry hentry := by
    obtain ⟨raw, hraw, rest⟩ := h.text entry hentry
    exact ⟨raw, List.mem_append_left _ hraw, rest⟩

/-- Pages are put together. -/
theorem Accounts.append {before rows rows' : List HistoryEvent}
    {page page' : List PublicChatMessage}
    (h : Accounts letterOrNumber filter db filters before rows page)
    (h' : Accounts letterOrNumber filter db filters (before ++ rows) rows' page') :
    Accounts letterOrNumber filter db filters before (rows ++ rows') (page ++ page') := by
  induction h with
  | nil before => simpa using h'
  | passedOver h _ ih => exact .passedOver h (ih (by simpa using h'))
  | shown h _ ih => exact .shown h (ih (by simpa using h'))
  | repeated h hmem hearlier hrepeats _ ih =>
    exact .repeated h hmem hearlier hrepeats (ih (by simpa using h'))

theorem Accounts.length_le {before rows : List HistoryEvent} {page : List PublicChatMessage}
    (h : Accounts letterOrNumber filter db filters before rows page) :
    page.length ≤ rows.length := by
  induction h with
  | nil _ => exact le_rfl
  | passedOver _ _ ih => simp only [List.length_cons]; omega
  | shown _ _ ih => simp only [List.length_cons]; omega
  | repeated _ _ _ _ _ ih => simp only [List.length_cons]; omega

omit [LiveEnv] in
/-- What a look-up finds was stored. -/
theorem of_seenWithin_none {seen : List (String × Int)} {key : String} {heardAt windowMs : Int}
    (h : seenWithin seen key heardAt windowMs = none) :
    key ≠ "" ∧ ∃ previousAt, (key, previousAt) ∈ seen ∧
      publicChatWithinWindow previousAt heardAt windowMs = true := by
  unfold seenWithin at h
  split at h
  · cases h
  rename_i hkey
  split at h
  · rename_i foundKey previousAt hfind
    split at h
    · rename_i hwithin
      have hsame : foundKey = key := by simpa using List.find?_some hfind
      exact ⟨hkey, previousAt, hsame ▸ List.mem_of_find?_eq_some hfind, hwithin⟩
    · cases h
  · cases h

omit [LiveEnv] in
/-- What a look-up stores is the message's own. -/
theorem mem_of_seenWithin {seen seen' : List (String × Int)} {key : String}
    {heardAt windowMs : Int} (h : seenWithin seen key heardAt windowMs = some seen')
    {entry : String × Int} (hentry : entry ∈ seen') : entry ∈ seen ∨ (key, heardAt) = entry := by
  unfold seenWithin at h
  split at h
  · rw [Option.some.inj h]
    exact Or.inl hentry
  · have hcons : seen' = (key, heardAt) :: seen := by
      split at h
      · split at h
        · cases h
        · exact (Option.some.inj h).symm
      · exact (Option.some.inj h).symm
    rw [hcons] at hentry
    exact (List.mem_cons.mp hentry).symm.imp id Eq.symm

/-- A look-up among the keys of examined rows: what it finds repeats one of them, and
what it stores is a key of an examined row again. -/
theorem dedupe_spec {rows : List HistoryEvent} {seen : ChatSeen}
    (h : SeenOf letterOrNumber filter db filters rows seen) {raw : HistoryEvent}
    {message : PublicChatMessage} (hraw : chatCandidate filter db filters raw = some message) :
    SeenOf letterOrNumber filter db filters (rows ++ [raw])
        (dedupe letterOrNumber raw message seen).1 ∧
      ((dedupe letterOrNumber raw message seen).2 = false → ∃ earlierRaw ∈ rows, ∃ earlier,
        chatCandidate filter db filters earlierRaw = some earlier ∧
          Repeats letterOrNumber raw message earlierRaw earlier) := by
  have hall := h.append [raw]
  have hlast : raw ∈ rows ++ [raw] := List.mem_append_right _ List.mem_cons_self
  unfold dedupe
  dsimp only
  split
  · -- the packet has been seen
    rename_i hseen
    refine ⟨hall, fun _ => ?_⟩
    obtain ⟨earlierRaw, hmem, earlier, hearlier, hkey⟩ := h.messages _ hseen.2
    exact ⟨earlierRaw, hmem, earlier, hearlier, Or.inl ⟨hseen.1, hkey⟩⟩
  · generalize hstored : (if publicChatDedupeKey raw message ≠ "" then
      { seen with messages := publicChatDedupeKey raw message :: seen.messages } else seen) = seen'
    have hdisplay : seen'.display = seen.display := by
      rw [← hstored]
      split <;> rfl
    have htext : seen'.text = seen.text := by
      rw [← hstored]
      split <;> rfl
    have hmessages : ∀ key ∈ seen'.messages, key ∈ seen.messages ∨ publicChatDedupeKey raw message = key := by
      intro key hkey
      rw [← hstored] at hkey
      split at hkey
      · exact (List.mem_cons.mp hkey).symm.imp id Eq.symm
      · exact Or.inl hkey
    have hstep : SeenOf letterOrNumber filter db filters (rows ++ [raw]) seen' := by
      refine ⟨fun key hkey => ?_, hdisplay ▸ hall.display, htext ▸ hall.text⟩
      rcases hmessages key hkey with hold | hnew
      · exact hall.messages key hold
      · exact ⟨raw, hlast, message, hraw, hnew⟩
    rw [hdisplay]
    cases hwithin : seenWithin seen.display (publicChatDisplayDedupeKey letterOrNumber message)
        message.heardAt publicChatDedupeWindowMs with
    | none =>
      -- the sender has said it
      refine ⟨hstep, fun _ => ?_⟩
      obtain ⟨hne, previousAt, hentry, hnear⟩ := of_seenWithin_none hwithin
      obtain ⟨earlierRaw, hmem, earlier, hearlier, heq⟩ := h.display _ hentry
      obtain ⟨hkey, hheard⟩ := Prod.mk.injEq .. ▸ heq
      exact ⟨earlierRaw, hmem, earlier, hearlier, Or.inr (Or.inl ⟨hne, hkey, hheard ▸ hnear⟩)⟩
    | some display =>
      have hdisplayed : SeenOf letterOrNumber filter db filters (rows ++ [raw])
          { seen' with display } := by
        refine ⟨hstep.messages, fun entry hentry => ?_, hstep.text⟩
        rcases mem_of_seenWithin hwithin hentry with hold | hnew
        · exact hall.display entry hold
        · exact ⟨raw, hlast, message, hraw, hnew⟩
      dsimp only
      rw [htext] at hdisplayed ⊢
      cases hwithin' : seenWithin seen.text (publicChatTextDedupeKey letterOrNumber message)
          message.heardAt publicChatTextDedupeWindowMs with
      | none =>
        -- the text has been said
        refine ⟨hdisplayed, fun _ => ?_⟩
        obtain ⟨hne, previousAt, hentry, hnear⟩ := of_seenWithin_none hwithin'
        obtain ⟨earlierRaw, hmem, earlier, hearlier, heq⟩ := h.text _ hentry
        obtain ⟨hkey, hheard⟩ := Prod.mk.injEq .. ▸ heq
        exact ⟨earlierRaw, hmem, earlier, hearlier, Or.inr (Or.inr ⟨hne, hkey, hheard ▸ hnear⟩)⟩
      | some text =>
        refine ⟨⟨hdisplayed.messages, hdisplayed.display, fun entry hentry => ?_⟩, fun hnew => by
          cases hnew⟩
        rcases mem_of_seenWithin hwithin' hentry with hold | hnew
        · exact hall.text entry hold
        · exact ⟨raw, hlast, message, hraw, hnew⟩

/-! ## The loop over the rows of one read -/

/-- The loop from `s` on has stopped at `s'`, behind some of the rows: behind all, or
when the page is full. The page accounts for those it is behind. -/
structure Scanned (letterOrNumber : Char → Bool) (filter : PublicIATAFilter) (db : Database)
    (filters : PublicChatFilters) (limit : Nat) (before rows read rest : List HistoryEvent)
    (page : List PublicChatMessage) (s s' : ChatScan) : Prop where
  split : rows = read ++ rest
  messages : s'.messages = s.messages ++ page
  nextCursor : s'.nextCursor = cursorAfter HistoryEvent.cursor s.nextCursor read
  scannedRaw : s'.scannedRaw = s.scannedRaw
  exhausted : s'.exhausted = s.exhausted
  accounts : Accounts letterOrNumber filter db filters before read page
  seen : SeenOf letterOrNumber filter db filters (before ++ read) s'.seen
  stopped : limit ≤ s'.messages.length ∧ read ≠ [] ∨ rest = [] ∧ s'.messages.length < limit

/-- A row before the others: what it leaves is taken over by the loop over them. -/
theorem Scanned.cons {limit : Nat} {before rows read rest : List HistoryEvent}
    {page : List PublicChatMessage} {s t s' : ChatScan} {raw : HistoryEvent}
    (page' : List PublicChatMessage)
    (h : Scanned letterOrNumber filter db filters limit (before ++ [raw]) rows read rest page t s')
    (hcursor : t.nextCursor = some raw.cursor) (hmessages : t.messages = s.messages ++ page')
    (hscanned : t.scannedRaw = s.scannedRaw) (hexhausted : t.exhausted = s.exhausted)
    (haccounts : Accounts letterOrNumber filter db filters (before ++ [raw]) read page →
      Accounts letterOrNumber filter db filters before (raw :: read) (page' ++ page)) :
    Scanned letterOrNumber filter db filters limit before (raw :: rows) (raw :: read) rest
      (page' ++ page) s s' where
  split := by rw [h.split]; rfl
  messages := by rw [h.messages, hmessages, List.append_assoc]
  nextCursor := by rw [h.nextCursor, hcursor, cursorAfter_cons]
  scannedRaw := h.scannedRaw.trans hscanned
  exhausted := h.exhausted.trans hexhausted
  accounts := haccounts h.accounts
  seen := by simpa using h.seen
  stopped := h.stopped.imp (fun hfull => ⟨hfull.1, List.cons_ne_nil _ _⟩) id

/-- The loop over the rows of one read. -/
theorem scanChat_spec {limit : Nat} (rows : List HistoryEvent) {before : List HistoryEvent}
    {s : ChatScan} (hseen : SeenOf letterOrNumber filter db filters before s.seen)
    (hroom : s.messages.length < limit) :
    ∃ read rest page, Scanned letterOrNumber filter db filters limit before rows read rest page s
      (scanChat letterOrNumber filter db limit filters rows s) := by
  induction rows generalizing before s with
  | nil =>
    exact ⟨[], [], [],
      { split := rfl
        messages := (List.append_nil _).symm
        nextCursor := rfl
        scannedRaw := rfl
        exhausted := rfl
        accounts := .nil before
        seen := by rwa [List.append_nil]
        stopped := Or.inr ⟨rfl, hroom⟩ }⟩
  | cons raw rows ih =>
    unfold scanChat
    dsimp only
    cases hraw : chatCandidate filter db filters raw with
    | none =>
      obtain ⟨read, rest, page, h⟩ := ih (s := { s with nextCursor := some raw.cursor })
        (hseen.append [raw]) hroom
      exact ⟨raw :: read, rest, _,
        h.cons [] rfl (List.append_nil _).symm rfl rfl (.passedOver hraw)⟩
    | some message =>
      obtain ⟨hafter, hrepeats⟩ := dedupe_spec hseen hraw
      dsimp only
      rcases hresult : dedupe letterOrNumber raw message s.seen with ⟨seen, isNew⟩
      rw [hresult] at hafter hrepeats
      dsimp only at hafter hrepeats ⊢
      cases isNew with
      | false =>
        obtain ⟨read, rest, page, h⟩ := ih (s := { s with nextCursor := some raw.cursor, seen })
          hafter hroom
        obtain ⟨earlierRaw, hmem, earlier, hearlier, hsame⟩ := hrepeats rfl
        exact ⟨raw :: read, rest, _, h.cons [] rfl (List.append_nil _).symm rfl rfl
          (.repeated hraw hmem hearlier hsame)⟩
      | true =>
        rw [if_neg (by simp)]
        split
        · rename_i hfull
          exact ⟨[raw], rows, [message],
            { split := rfl
              messages := rfl
              nextCursor := rfl
              scannedRaw := rfl
              exhausted := rfl
              accounts := .shown hraw (.nil _)
              seen := hafter
              stopped := Or.inl ⟨hfull, List.cons_ne_nil _ _⟩ }⟩
        · rename_i hfull
          obtain ⟨read, rest, page, h⟩ :=
            ih (s := { s with
              nextCursor := some raw.cursor, seen, messages := s.messages ++ [message] })
              hafter (not_le.mp hfull)
          exact ⟨raw :: read, rest, _, h.cons [message] rfl rfl rfl rfl (.shown hraw)⟩

/-! ## The rows of a window -/

/-- The chat rows of a window: the edges that carry a message, and the observations
that carry one and have no edge, in descending order. -/
def chatWindow (db : Database) (fromMs toMs : Int) : List HistoryEvent :=
  ((db.joinedEdges.filter fun edge =>
      fromMs ≤ edge.heardAt ∧ edge.heardAt ≤ toMs ∧ edge.messageText ≠ "").map routedEvent ++
    (db.observations.filter fun packet =>
      fromMs ≤ packet.heardAt ∧ packet.heardAt ≤ toMs ∧ packet.messageText ≠ "" ∧
        ∀ edge ∈ db.edges, edge.observationID ≠ packet.id).map observerEvent).insertionSort chatOrder

/-- A row of the region that a request names, if it names one. -/
def inRegion (iata : String) (raw : HistoryEvent) : Bool := iata = "" || toUpper raw.iata = iata

section Rows

variable {now fromMs toMs : Int}

omit [LiveEnv] in
theorem iata_routedEvent {edge : EdgeEvent} (hid : 0 < edge.id) :
    (routedEvent edge).iata = edge.iata := by
  unfold routedEvent HistoryEvent.iata
  rw [if_pos hid]

omit [LiveEnv] in
theorem iata_observerEvent {packet : PacketObservation} (hid : 0 < packet.id) :
    (observerEvent packet).iata = packet.iata := by
  unfold observerEvent HistoryEvent.iata
  rw [if_pos hid]

omit [LiveEnv] in
/-- What the query looks at are the rows of the window and the region. -/
theorem insertionSort_chatUnion (hids : db.ChatRowIDs) (hiata : upperTrim filters.iata = filters.iata)
    (fromMs : Int) (hto : boundedHistoryTo now toMs = toMs) (c : Option HistoryCursor) (n : Nat) :
    (db.chatUnion now (chatQuery fromMs toMs filters c n)).insertionSort chatOrder =
      (chatWindow db fromMs toMs).filter (inRegion filters.iata) := by
  have hlabel : ∀ iata payloadTypeName,
      Database.labelCondition (chatQuery fromMs toMs filters c n) iata payloadTypeName ↔
        (filters.iata = "" ∨ toUpper iata = filters.iata) := by
    intro iata payloadTypeName
    unfold Database.labelCondition chatQuery
    dsimp only
    rw [hiata, upperTrim_empty]
    exact and_iff_left (Or.inl rfl)
  unfold chatWindow Database.chatUnion
  rw [filter_insertionSort chatOrder_total chatOrder_trans, List.filter_append, List.filter_map,
    List.filter_map, List.filter_filter, List.filter_filter]
  congr 3
  · refine List.filter_congr fun edge hedge => Bool.eq_iff_iff.mpr ?_
    have hregion : inRegion filters.iata (routedEvent edge) = true ↔
        (filters.iata = "" ∨ toUpper edge.iata = filters.iata) := by
      unfold inRegion
      rw [iata_routedEvent (hids.edges.pos hedge), Bool.or_eq_true, decide_eq_true_eq,
        decide_eq_true_eq]
    rw [Bool.and_eq_true, decide_eq_true_eq, decide_eq_true_eq, Function.comp_apply, hregion,
      Database.chatEdgeCondition, hlabel]
    unfold chatQuery
    dsimp only
    rw [hto]
    exact ⟨fun h => ⟨h.2.2.2, h.1, h.2.1, h.2.2.1⟩, fun h => ⟨h.2.1, h.2.2.1, h.2.2.2, h.1⟩⟩
  · refine List.filter_congr fun packet hpacket => Bool.eq_iff_iff.mpr ?_
    have hregion : inRegion filters.iata (observerEvent packet) = true ↔
        (filters.iata = "" ∨ toUpper packet.iata = filters.iata) := by
      unfold inRegion
      rw [iata_observerEvent (hids.positive packet hpacket), Bool.or_eq_true, decide_eq_true_eq,
        decide_eq_true_eq]
    rw [Bool.and_eq_true, decide_eq_true_eq, decide_eq_true_eq, Function.comp_apply, hregion,
      Database.chatPacketCondition, hlabel]
    unfold chatQuery
    dsimp only
    rw [hto]
    exact ⟨fun h => ⟨h.2.2.2.2, h.1, h.2.1, h.2.2.1, h.2.2.2.1⟩,
      fun h => ⟨h.2.1, h.2.2.1, h.2.2.2.1, h.2.2.2.2, h.1⟩⟩

omit [LiveEnv] in
/-- What the loop reads. -/
theorem publicChatEvents_window (hids : db.ChatRowIDs) (hiata : upperTrim filters.iata = filters.iata)
    (hto : boundedHistoryTo now toMs = toMs) {n : Nat} (hpos : 0 < n) (hle : n ≤ 2500)
    (c : Option HistoryCursor) :
    db.publicChatEvents now (chatQuery fromMs toMs filters c n) =
      (rowsBeyond HistoryCursor.ChatBefore HistoryEvent.cursor c
        ((chatWindow db fromMs toMs).filter (inRegion filters.iata))).take n := by
  have hlimit : (chatQuery fromMs toMs filters c n).limit = n := rfl
  rw [Database.publicChatEvents_eq, insertionSort_chatUnion hids hiata fromMs hto, hlimit,
    if_neg (by omega), Int.toNat_natCast]
  rfl

omit [LiveEnv] in
theorem chatRawLimit_bounds {limit : Nat} (filters : PublicChatFilters) (s : ChatScan) (hroom : s.messages.length < limit)
    (hscanned : s.scannedRaw < publicChatMaxRawScan) :
    0 < chatRawLimit limit filters s ∧ chatRawLimit limit filters s ≤ 2500 := by
  unfold chatRawLimit publicChatRawPageSize
  rw [if_neg (by omega)]
  split <;> omega

end Rows

/-! ## One request -/

section Request

variable {now fromMs toMs : Int} {limit : Nat} {rows : List HistoryEvent}

/-- Between two passes: the rows examined so far lead from the cursor of the request to
the cursor reached, and the page accounts for them. -/
structure ChatInv (letterOrNumber : Char → Bool) (filter : PublicIATAFilter) (db : Database)
    (filters : PublicChatFilters) (rows : List HistoryEvent) (c : Option HistoryCursor)
    (examined : List HistoryEvent) (s : ChatScan) : Prop where
  leads : Leads HistoryCursor.ChatBefore (rows.map HistoryEvent.cursor)
    (fun c => (rowsBeyond HistoryCursor.ChatBefore HistoryEvent.cursor c rows).filterMap some) c
    examined s.nextCursor
  accounts : Accounts letterOrNumber filter db filters [] examined s.messages
  seen : SeenOf letterOrNumber filter db filters examined s.seen
  left : examined ≠ [] → s.nextCursor ≠ c
  scanned : 0 < s.scannedRaw → examined ≠ []
  going : s.exhausted = false

/-- After the loop: the page accounts for rows that lead to the cursor it hands out, or
for all that there are. -/
def ChatDone (letterOrNumber : Char → Bool) (filter : PublicIATAFilter) (db : Database)
    (filters : PublicChatFilters) (limit : Nat) (rows : List HistoryEvent)
    (c : Option HistoryCursor) (s : ChatScan) : Prop :=
  ∃ examined, Accounts letterOrNumber filter db filters [] examined s.messages ∧
    Answers HistoryCursor.ChatBefore (rows.map HistoryEvent.cursor)
      (fun c => (rowsBeyond HistoryCursor.ChatBefore HistoryEvent.cursor c rows).filterMap some) c
      examined (publicChatNextCursorToken s.nextCursor s.exhausted s.messages.length limit s.scannedRaw)

/-- A page that is full or has scanned enough. -/
theorem ChatInv.done {c : Option HistoryCursor} {examined : List HistoryEvent} {s : ChatScan}
    (h : ChatInv letterOrNumber filter db filters rows c examined s) (hlimit : 0 < limit)
    (hover : limit ≤ s.messages.length ∨ publicChatMaxRawScan ≤ s.scannedRaw) :
    ChatDone letterOrNumber filter db filters limit rows c s := by
  refine ⟨examined, h.accounts, ?_⟩
  unfold publicChatNextCursorToken
  rw [h.going, if_neg (by simp), if_pos hover]
  refine h.leads.answers (h.left ?_)
  rcases hover with hfull | hscanned
  · rintro rfl
    have := h.accounts.length_le
    rw [List.length_nil] at this
    omega
  · exact h.scanned (lt_of_lt_of_le (by decide) hscanned)

/-- Rows that come next have been examined. -/
theorem ChatInv.read (hsorted : rows.Pairwise fun a b => a.cursor.ChatBefore b.cursor)
    {c : Option HistoryCursor} {examined raw read rest more : List HistoryEvent}
    {page : List PublicChatMessage} {s s' : ChatScan}
    (h : ChatInv letterOrNumber filter db filters rows c examined s) {scannedRaw : Nat}
    (hscan : Scanned letterOrNumber filter db filters limit examined raw read rest page
      { s with scannedRaw } s')
    (hahead : rowsBeyond HistoryCursor.ChatBefore HistoryEvent.cursor s.nextCursor rows = read ++ more)
    (hread : read ≠ []) :
    ChatInv letterOrNumber filter db filters rows c (examined ++ read) s' := by
  have hmoves := leads_of_read hsorted some hahead
  have hleft := cursorAfter_ne hahead hread
  rw [List.filterMap_some] at hmoves
  constructor
  · rw [hscan.nextCursor]
    exact h.leads.trans hmoves
  · rw [hscan.messages]
    exact h.accounts.append hscan.accounts
  · exact hscan.seen
  · intro _
    rw [hscan.nextCursor]
    by_cases hsame : s.nextCursor = c
    · rw [← hsame]
      exact hleft
    · exact h.leads.ne_trans hmoves hsame
  · exact fun _ => List.append_ne_nil_of_right_ne_nil _ hread
  · exact hscan.exhausted.trans h.going

/-- When no rows are left, all have been examined. -/
theorem ChatInv.all {c : Option HistoryCursor} {examined read : List HistoryEvent} {s : ChatScan}
    (h : ChatInv letterOrNumber filter db filters rows c examined s)
    (hahead : rowsBeyond HistoryCursor.ChatBefore HistoryEvent.cursor s.nextCursor rows = read) :
    (rowsBeyond HistoryCursor.ChatBefore HistoryEvent.cursor c rows).filterMap some =
      examined ++ read := by
  have hlisted := h.leads.listed
  rw [hlisted, hahead, List.filterMap_some]

/-- A pass of the loop reads on or is the last one. -/
theorem chatPass_spec (hrows : rows = (chatWindow db fromMs toMs).filter (inRegion filters.iata))
    (hsorted : rows.Pairwise fun a b => a.cursor.ChatBefore b.cursor) (hids : db.ChatRowIDs)
    (hiata : upperTrim filters.iata = filters.iata) (hto : boundedHistoryTo now toMs = toMs)
    {c : Option HistoryCursor} {examined : List HistoryEvent} {s : ChatScan}
    (h : ChatInv letterOrNumber filter db filters rows c examined s) (hlimit : 0 < limit)
    (hroom : s.messages.length < limit) (hscanned : s.scannedRaw < publicChatMaxRawScan) :
    let result := chatPass letterOrNumber filter db now fromMs toMs limit filters s
    (result.2 = true ∧
        (∃ examined', ChatInv letterOrNumber filter db filters rows c examined' result.1) ∧
        (rowsBeyond HistoryCursor.ChatBefore HistoryEvent.cursor result.1.nextCursor rows).length <
          (rowsBeyond HistoryCursor.ChatBefore HistoryEvent.cursor s.nextCursor rows).length) ∨
      (result.2 = false ∧ ChatDone letterOrNumber filter db filters limit rows c result.1) := by
  obtain ⟨hpos, hle⟩ := chatRawLimit_bounds filters s hroom hscanned
  unfold chatPass
  dsimp only
  rw [publicChatEvents_window hids hiata hto hpos hle, ← hrows]
  generalize hn : chatRawLimit limit filters s = n at hpos
  generalize hahead : rowsBeyond HistoryCursor.ChatBefore HistoryEvent.cursor s.nextCursor rows = ahead
  by_cases hempty : ahead.take n = []
  · -- an empty read: nothing is left
    have hnil : ahead = [] := (List.take_eq_nil_iff.mp hempty).resolve_left hpos.ne'
    rw [if_pos (by simpa using hempty)]
    refine Or.inr ⟨rfl, examined, h.accounts, ?_⟩
    show (rowsBeyond HistoryCursor.ChatBefore HistoryEvent.cursor c rows).filterMap some = examined
    rw [h.all (hahead.trans hnil), List.append_nil]
  · rw [if_neg (by simpa using hempty)]
    obtain ⟨read, rest, page, hscan⟩ := scanChat_spec (ahead.take n)
      (s := { s with scannedRaw := s.scannedRaw + (ahead.take n).length }) h.seen hroom
    generalize scanChat letterOrNumber filter db limit filters (ahead.take n)
      { s with scannedRaw := s.scannedRaw + (ahead.take n).length } = s' at hscan ⊢
    have hsplit : ahead = read ++ (rest ++ ahead.drop n) := by
      rw [← List.append_assoc, ← hscan.split, List.take_append_drop]
    rcases hscan.stopped with ⟨hfull, hread⟩ | ⟨rfl, hroom'⟩
    · -- the page is full
      rw [if_pos (Or.inr hfull), decide_eq_false (not_lt.mpr hfull), Bool.and_false]
      have hinv := h.read hsorted hscan (hahead.trans hsplit) hread
      refine Or.inr ⟨rfl, ?_⟩
      have hsame : { s' with exhausted := false } = s' := by rw [← hinv.going]
      rw [hsame]
      exact hinv.done hlimit (Or.inl hfull)
    · have hall : ahead.take n = read := hscan.split.trans (List.append_nil _)
      rw [hall] at hempty ⊢
      by_cases hshort : read.length < n
      · -- the last rows have been read
        have hlast : ahead = read := by
          rw [← hall, List.length_take] at hshort
          rw [← hall, List.take_of_length_le (by omega)]
        rw [if_pos (Or.inl hshort), decide_eq_true hshort, decide_eq_true hroom']
        refine Or.inr ⟨rfl, examined ++ read, ?_, ?_⟩
        · show Accounts letterOrNumber filter db filters [] (examined ++ read) s'.messages
          rw [hscan.messages]
          exact h.accounts.append hscan.accounts
        · exact h.all (hahead.trans hlast)
      · rw [if_neg (not_or.mpr ⟨hshort, not_le.mpr hroom'⟩)]
        refine Or.inl ⟨rfl, ⟨_, h.read hsorted hscan (hahead.trans hsplit) hempty⟩, ?_⟩
        dsimp only
        rw [hscan.nextCursor, rowsBeyond_cursorAfter hsorted (hahead.trans hsplit)]
        have hlength := congrArg List.length hsplit
        rw [List.length_append] at hlength
        have := List.length_pos_iff.mpr hempty
        omega

/-- A request is answered rightly, with a page that accounts for the rows it examines. -/
theorem publicChat_answers
    (hrows : rows = (chatWindow db fromMs toMs).filter (inRegion filters.iata))
    (hids : db.ChatRowIDs) (hto : boundedHistoryTo now toMs = toMs) {request : ChatRequest}
    (hfilters : publicChatFilters request = filters)
    (hwindow : publicHistoryWindow request.fromQuery request.toQuery now = (fromMs, toMs))
    (hpage : pageLimit request.limitQuery publicChatDefaultLimit publicChatMaxLimit = limit)
    (hlimit : 0 < limit) :
    ∃ r, publicChat letterOrNumber filter db now request = some r ∧ ∃ examined,
      Accounts letterOrNumber filter db filters [] examined r.messages ∧
      Answers HistoryCursor.ChatBefore (rows.map HistoryEvent.cursor)
        (fun c => (rowsBeyond HistoryCursor.ChatBefore HistoryEvent.cursor c rows).filterMap some)
        request.cursor examined r.nextCursor := by
  have hiata : upperTrim filters.iata = filters.iata := by
    rw [← hfilters]
    exact upperTrim_firstUpperQuery _
  have hunion := insertionSort_chatUnion hids hiata fromMs hto none 0
  have hsorted : rows.Pairwise fun a b => a.cursor.ChatBefore b.cursor := by
    rw [hrows, ← hunion]
    exact hids.pairwise
  have hlength : rows.length ≤ db.edges.length + db.observations.length := by
    rw [hrows, ← hunion, List.length_insertionSort]
    exact Database.ChatRowIDs.length_chatUnion_le ..
  have hloop : ∃ s, runLoop (fun s : ChatScan =>
        decide (s.messages.length < limit) && decide (s.scannedRaw < publicChatMaxRawScan))
      (chatPass letterOrNumber filter db now fromMs toMs limit filters)
      (db.edges.length + db.observations.length + 1)
      { messages := [], seen := .empty, nextCursor := request.cursor, scannedRaw := 0
        exhausted := false } = some s ∧
      ChatDone letterOrNumber filter db filters limit rows request.cursor s := by
    refine runLoop_spec (fun s : ChatScan =>
      (rowsBeyond HistoryCursor.ChatBefore HistoryEvent.cursor s.nextCursor rows).length)
      (fun s (h : ∃ examined,
        ChatInv letterOrNumber filter db filters rows request.cursor examined s) hmore => ?_)
      (fun s h hover => ?_) _ _ ⟨[], ?_⟩ (Nat.lt_succ_of_le ((List.length_filter_le ..).trans hlength))
    · obtain ⟨examined, h⟩ := h
      rw [Bool.and_eq_true, decide_eq_true_eq, decide_eq_true_eq] at hmore
      exact chatPass_spec hrows hsorted hids hiata hto h hlimit hmore.1 hmore.2
    · obtain ⟨examined, h⟩ := h
      rw [Bool.and_eq_false_iff, decide_eq_false_iff_not, decide_eq_false_iff_not] at hover
      exact h.done hlimit (hover.imp not_lt.mp not_lt.mp)
    · exact
        { leads := Leads.refl _
          accounts := .nil _
          seen := seenOf_empty
          left := fun h => absurd rfl h
          scanned := fun h => absurd h (lt_irrefl 0)
          going := rfl }
  obtain ⟨s, hs, examined, haccounts, hanswer⟩ := hloop
  refine ⟨{ serverTime := now, messages := s.messages, nextCursor := _
            window := { fromMs, toMs, count := s.messages.length } }, ?_, examined, haccounts, hanswer⟩
  unfold publicChat
  rw [hwindow, hpage, hfilters]
  dsimp only
  rw [hs]
  rfl

end Request

/-! ## Following the cursors -/

/-- The pages of a client that follows the cursors, its `i`-th request being answered
at the time `now i`. -/
def chatPages (letterOrNumber : Char → Bool) (filter : PublicIATAFilter) (db : Database)
    (request : ChatRequest) (now : Nat → Int) : Option (List (List PublicChatMessage)) :=
  follow (fun i cursor =>
    (publicChat letterOrNumber filter db (now i) { request with cursor }).map fun r =>
      (r.messages, r.nextCursor))
    (db.edges.length + db.observations.length + 1) 0 none

/-- A message carries the region of its row. -/
theorem iata_publicChatMessage {raw : HistoryEvent} {locations : PublicObserverLocationIndex}
    {index : PathHash3Index} {message : PublicChatMessage}
    (h : publicChatMessage raw locations index = some message) :
    message.iata = upperTrim raw.iata := by
  unfold publicChatMessage at h
  unfold HistoryEvent.iata
  cases hedge : raw.edge with
  | some edge =>
    rw [hedge] at h
    dsimp only at h ⊢
    obtain ⟨pulse, hpulse, h⟩ := Option.bind_eq_some_iff.mp h
    obtain ⟨packet, hpacket, h⟩ := Option.bind_eq_some_iff.mp h
    split at h
    · cases h
    have hmappable : mappableSegments edge ≠ [] := fun hnil => by
      rw [(publicRoutePulseFromEdge_eq_none_iff edge index).mpr hnil] at hpulse
      cases hpulse
    obtain ⟨path, hpath, hof⟩ := publicPacketPath_spec hmappable index
    have hsame : publicPacketPath edge index = some packet := by
      rw [publicPacketPath, hpulse]
      exact hpacket
    rw [← Option.some.inj h, ← hof.iata, ← Option.some.inj (hpath.symm.trans hsame)]
  | none =>
    rw [hedge] at h
    cases hpacket : raw.packet with
    | none =>
      rw [hpacket] at h
      cases h
    | some packet =>
      rw [hpacket] at h
      dsimp only at h ⊢
      split at h
      · cases h
      · rw [← Option.some.inj h]
        rfl

/-- A row with a message for the request is in its region. -/
theorem inRegion_of_chatCandidate {raw : HistoryEvent} {message : PublicChatMessage}
    (hlabel : upperTrim raw.iata = raw.iata)
    (h : chatCandidate filter db filters raw = some message) : inRegion filters.iata raw = true := by
  unfold chatCandidate at h
  split at h
  · cases h
  obtain ⟨hmessage, hmatches⟩ := Option.filter_eq_some_iff.mp h
  have hiata := iata_publicChatMessage hmessage
  unfold publicChatMatchesFilters at hmatches
  rw [hiata, hlabel] at hmatches
  simp only [Bool.and_eq_true, Bool.not_eq_true', Bool.and_eq_false_iff, decide_eq_false_iff_not,
    Decidable.not_not] at hmatches
  unfold inRegion
  rw [Bool.or_eq_true, decide_eq_true_eq, decide_eq_true_eq]
  exact hmatches.1.1

omit [LiveEnv] in
/-- The rows of a window carry regions in comparison form. -/
theorem upperTrim_iata_chatWindow (hids : db.ChatRowIDs) (hlabels : db.Labelled) {fromMs toMs : Int}
    {raw : HistoryEvent} (hraw : raw ∈ chatWindow db fromMs toMs) :
    upperTrim raw.iata = raw.iata := by
  unfold chatWindow at hraw
  rw [(List.perm_insertionSort _ _).mem_iff, List.mem_append] at hraw
  rcases hraw with hraw | hraw
  · obtain ⟨edge, hedge, rfl⟩ := List.mem_map.mp hraw
    have hjoined := List.mem_of_mem_filter hedge
    rw [iata_routedEvent (hids.edges.pos hjoined)]
    obtain ⟨stored, hstored, rfl⟩ := List.mem_map.mp hjoined
    exact (hlabels.joined hstored).1
  · obtain ⟨packet, hpacket, rfl⟩ := List.mem_map.mp hraw
    have hstored := List.mem_of_mem_filter hpacket
    rw [iata_observerEvent (hids.positive packet hstored)]
    obtain ⟨part, hpart⟩ := hlabels.regions packet hstored
    exact upperTrim_of_parseRegion hpart

end Env

/-! ## A run -/

section Runs

open CartoLive.App

attribute [local instance] defaultEnv

/-- An edge and an observation that agree in time and identifier. -/
def tiedMessages : Database :=
  { emptyDatabase with
    observations :=
      [{ samplePacket 1 with messageText := "hello" }, { samplePacket 2 with messageText := "hi" }]
    edges := [{ sampleEdge with id := 1, observationID := 2, messageText := "hi" }] }

/-- The request for messages up to 5000, one on a page. -/
def messagesUpTo5000 : ChatRequest :=
  { fromQuery := some 0, toQuery := some 5000, limitQuery := some 1, cursor := none
    region := ["yow"], iata := [], channel := "", q := "" }

end Runs

end CartoLive.Theorems.ChatPages
