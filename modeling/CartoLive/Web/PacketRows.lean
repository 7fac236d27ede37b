import CartoLive.Live.PacketPaths
import CartoLive.Lib.Joined

/-!
# Rows of the packet list

How the browser makes rows of live activity and pulses (`packets.ts`) and drops
rows that it has (`dedupePackets.ts`). A row is a packet path; the length of the
path and the fields that the list only displays are left out where the model of
the path leaves them out.

Live rows come before the rows of the history, and each is kept under its own
identifier; a row of the history goes by its signature (`dedupePackets_eq`).
-/

namespace CartoLive.Web

open CartoLive.Lib CartoLive.Go CartoLive.Live

/-! ## Live rows -/

/-- `seq ?? id`: a message without a sequence has none. -/
def seqOrID (seq : Int) (id : String) : String := if seq = 0 then id else toString seq

/-- `livePacketKey`. -/
def livePacketKey (heardAt : Int) (payloadTypeName : String) (routeIDs : List String) : String :=
  toString heardAt ++ ":" ++ payloadTypeName ++ ":" ++ "|".intercalate routeIDs

/-- The row of a pulse. -/
def pulseRow (pulse : PublicRoutePulse) : PublicPacketPath :=
  { id := "live-pulse:" ++ seqOrID pulse.seq pulse.id
    heardAt := pulse.heardAt
    iata := pulse.iata
    region := pulse.region
    payloadTypeName := pulse.payloadTypeName
    messageSender := pulse.messageSender
    messageText := pulse.messageText
    hopCount := pulse.segments.length
    segmentCount := pulse.segments.length
    routeIDs := pulse.segments.map PublicRouteSegment.routeID
    endpointLabels :=
      ((pulse.segments.head?.map fun segment => segment.source.label).toList ++
        pulse.segments.map fun segment => segment.target.label).filter (· ≠ "")
    segments := pulse.segments }

/-- The row of an activity. -/
def activityRow (item : PublicActivity) : PublicPacketPath :=
  { id := "live-activity:" ++ seqOrID item.seq item.id
    heardAt := item.heardAt
    iata := item.iata
    region := item.region
    payloadTypeName := item.payloadTypeName
    messageSender := item.messageSender
    messageText := item.messageText
    hopCount := max 0 item.hopCount
    segmentCount := 0
    routeIDs := item.routeIDs
    endpointLabels := item.endpointLabels
    segments := [] }

def pulseKey (pulse : PublicRoutePulse) : String :=
  livePacketKey pulse.heardAt pulse.payloadTypeName (pulse.segments.map PublicRouteSegment.routeID)

def activityKey (item : PublicActivity) : String :=
  livePacketKey item.heardAt item.payloadTypeName item.routeIDs

/-- `livePacketsFromActivity`: an activity has a row of its own unless a pulse has
its key. -/
def livePacketsFromActivity (activity : List PublicActivity) (pulses : List PublicRoutePulse) :
    List PublicPacketPath :=
  let shown := pulses.filter fun pulse => pulse.segments ≠ []
  let pulseKeys := shown.map pulseKey
  let others := activity.filter fun item =>
    (item.kind = "packet" ∨ item.kind = "route") ∧ activityKey item ∉ pulseKeys
  (shown.map pulseRow ++ others.map activityRow).insertionSort fun left right =>
    right.heardAt ≤ left.heardAt

/-! ## Dropping rows -/

/-- The signature of a row. -/
def signature (packet : PublicPacketPath) : String :=
  toString packet.heardAt ++ ":" ++ packet.payloadTypeName ++ ":" ++
    "|".intercalate packet.routeIDs ++ ":" ++ "|".intercalate packet.endpointLabels ++ ":" ++
    toString packet.segmentCount

/-- The identifier of a live row begins with `live-`. -/
def isLive (packet : PublicPacketPath) : Bool := "live-".toList.isPrefixOf packet.id.toList

/-- The sets and the output of the loop of `dedupePackets`. -/
structure Dedupe where
  seen : List String
  liveSignatures : List String
  output : List PublicPacketPath

/-- The key that a row is seen under. -/
def rowKey (packet : PublicPacketPath) : String :=
  if isLive packet then "live:" ++ packet.id else "history:" ++ signature packet

/-- One turn of the loop. -/
def dedupeRow (state : Dedupe) (packet : PublicPacketPath) : Dedupe :=
  if isLive packet = false ∧ signature packet ∈ state.liveSignatures then state
  else if rowKey packet ∈ state.seen then state
  else
    { seen := state.seen ++ [rowKey packet]
      liveSignatures :=
        if isLive packet then state.liveSignatures ++ [signature packet] else state.liveSignatures
      output := state.output ++ [packet] }

/-- `dedupePackets`. -/
def dedupePackets (packets : List PublicPacketPath) : List PublicPacketPath :=
  (packets.foldl dedupeRow { seen := [], liveSignatures := [], output := [] }).output

/-! ## What remains -/

theorem rowKey_live_ne_history {a b : PublicPacketPath} (ha : isLive a = true)
    (hb : isLive b = false) : rowKey a ≠ rowKey b := by
  intro h
  have hchars := congrArg (fun s => s.toList.head?) h
  simp only [rowKey, ha, hb, if_true, Bool.false_eq_true, if_false, String.toList_append] at hchars
  simp at hchars

theorem rowKey_live_inj {a b : PublicPacketPath} (ha : isLive a = true) (hb : isLive b = true)
    (h : rowKey a = rowKey b) : a.id = b.id := by
  simp only [rowKey, ha, hb, if_true] at h
  exact String.append_right_inj _ |>.mp h

theorem rowKey_history_inj {a b : PublicPacketPath} (ha : isLive a = false) (hb : isLive b = false) :
    rowKey a = rowKey b ↔ signature a = signature b := by
  simp only [rowKey, ha, hb, Bool.false_eq_true, if_false]
  exact String.append_right_inj _

/-- Live rows of different identifiers are all kept. -/
theorem foldl_dedupeRow_live {live : List PublicPacketPath} (hlive : ∀ l ∈ live, isLive l = true)
    (hids : (live.map PublicPacketPath.id).Nodup) (state : Dedupe)
    (hseen : ∀ l ∈ live, rowKey l ∉ state.seen) :
    live.foldl dedupeRow state =
      { seen := state.seen ++ live.map rowKey
        liveSignatures := state.liveSignatures ++ live.map signature
        output := state.output ++ live } := by
  induction live generalizing state with
  | nil => simp
  | cons first live ih =>
    rw [List.map_cons, List.nodup_cons] at hids
    have hfirst := hlive first List.mem_cons_self
    have hstep : dedupeRow state first =
        { seen := state.seen ++ [rowKey first]
          liveSignatures := state.liveSignatures ++ [signature first]
          output := state.output ++ [first] } := by
      simp [dedupeRow, hfirst, hseen first List.mem_cons_self]
    rw [List.foldl_cons, hstep, ih (fun l hl => hlive l (List.mem_cons_of_mem _ hl)) hids.2]
    · simp
    · intro l hl hin
      rcases List.mem_append.mp hin with hold | hnew
      · exact hseen l (List.mem_cons_of_mem _ hl) hold
      · have hsame := rowKey_live_inj (hlive l (List.mem_cons_of_mem _ hl)) hfirst
          (List.mem_singleton.mp hnew)
        exact hids.1 (hsame ▸ List.mem_map_of_mem hl)

/-- The rows of the history that are kept: the first of each signature, unless a
live row has it. -/
def keptHistory (signatures : List String) : List PublicPacketPath → List PublicPacketPath
  | [] => []
  | packet :: rest =>
    if signature packet ∈ signatures then keptHistory signatures rest
    else packet :: keptHistory (signatures ++ [signature packet]) rest

/-- What is seen of the history is kept by signature. -/
theorem foldl_dedupeRow_history {history : List PublicPacketPath}
    (hhistory : ∀ h ∈ history, isLive h = false) (state : Dedupe) (signatures : List String)
    (hsignatures : ∀ packet, isLive packet = false →
      (signature packet ∈ signatures ↔
        signature packet ∈ state.liveSignatures ∨ rowKey packet ∈ state.seen)) :
    (history.foldl dedupeRow state).output = state.output ++ keptHistory signatures history := by
  induction history generalizing state signatures with
  | nil => exact (List.append_nil _).symm
  | cons first history ih =>
    have hfirst := hhistory first List.mem_cons_self
    have hrest := fun h hh => hhistory h (List.mem_cons_of_mem first hh)
    rw [List.foldl_cons]
    by_cases hin : signature first ∈ signatures
    · have hstep : dedupeRow state first = state := by
        rcases (hsignatures first hfirst).mp hin with hlive | hseen
        · exact if_pos ⟨hfirst, hlive⟩
        · simp [dedupeRow, hseen]
      rw [hstep, keptHistory, if_pos hin]
      exact ih hrest state signatures hsignatures
    · obtain ⟨hlive, hseen⟩ := not_or.mp (mt (hsignatures first hfirst).mpr hin)
      have hstep : dedupeRow state first =
          { seen := state.seen ++ [rowKey first]
            liveSignatures := state.liveSignatures
            output := state.output ++ [first] } := by
        simp [dedupeRow, hfirst, hlive, hseen]
      rw [hstep, keptHistory, if_neg hin, ih hrest _ (signatures ++ [signature first])]
      · simp
      · intro packet hpacket
        simp only [List.mem_append, List.mem_singleton, hsignatures packet hpacket,
          rowKey_history_inj hpacket hfirst, or_assoc]

/-- **What `dedupePackets` keeps** of live rows of different identifiers and the
history behind them. -/
theorem dedupePackets_eq {live history : List PublicPacketPath}
    (hlive : ∀ l ∈ live, isLive l = true) (hids : (live.map PublicPacketPath.id).Nodup)
    (hhistory : ∀ h ∈ history, isLive h = false) :
    dedupePackets (live ++ history) = live ++ keptHistory (live.map signature) history := by
  unfold dedupePackets
  rw [List.foldl_append, foldl_dedupeRow_live hlive hids _ fun _ _ => List.not_mem_nil,
    foldl_dedupeRow_history hhistory _ (live.map signature)]
  · simp
  · intro packet hpacket
    have hkeys : rowKey packet ∉ live.map rowKey := fun hin => by
      obtain ⟨l, hl, hkey⟩ := List.mem_map.mp hin
      exact rowKey_live_ne_history (hlive l hl) hpacket hkey
    simp [hkeys]

end CartoLive.Web
