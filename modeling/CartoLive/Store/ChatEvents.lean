import CartoLive.Store.PacketPaths

/-!
# The chat query

`PublicChatEvents` of `history.go`: the edges that carry a message and the
observations that carry one and have no edge, in one order. Its cursor has three
components, since an edge and an observation may agree in time and identifier.
-/

namespace CartoLive.Store

open CartoLive.Lib CartoLive.Go CartoLive.Live

/-! ## The order -/

/-- `ORDER BY at_ms DESC, type_order DESC, entity_id DESC`, for different positions. -/
def HistoryCursor.ChatBefore (a b : HistoryCursor) : Prop :=
  b.heardAt < a.heardAt ∨ (b.heardAt = a.heardAt ∧ b.typeOrder < a.typeOrder) ∨
    (b.heardAt = a.heardAt ∧ b.typeOrder = a.typeOrder ∧ b.id < a.id)

instance : DecidableRel HistoryCursor.ChatBefore := fun a b => by
  unfold HistoryCursor.ChatBefore
  infer_instance

instance : IsStrictOrder HistoryCursor HistoryCursor.ChatBefore where
  irrefl a h := by
    unfold HistoryCursor.ChatBefore at h
    omega
  trans a b c hab hbc := by
    unfold HistoryCursor.ChatBefore at hab hbc ⊢
    omega

/-- The same order, of any two rows. -/
def chatOrder (a b : HistoryEvent) : Prop := ¬ b.cursor.ChatBefore a.cursor

instance : DecidableRel chatOrder := fun a b => by
  unfold chatOrder
  infer_instance

theorem chatOrder_total (a b : HistoryEvent) : chatOrder a b ∨ chatOrder b a := by
  unfold chatOrder HistoryCursor.ChatBefore
  omega

theorem chatOrder_trans (a b c : HistoryEvent) (hab : chatOrder a b) (hbc : chatOrder b c) :
    chatOrder a c := by
  unfold chatOrder HistoryCursor.ChatBefore at hab hbc ⊢
  omega

/-! ## The rows -/

/-- The row of an edge in `PublicChatEvents`. -/
def routedEvent (edge : EdgeEvent) : HistoryEvent :=
  { type := "routed", heardAt := edge.heardAt, typeOrder := 2, id := edge.id
    packet := none, edge := if 0 < edge.id then some edge else none }

/-- The row of an observation. -/
def observerEvent (packet : PacketObservation) : HistoryEvent :=
  { type := "observer", heardAt := packet.heardAt, typeOrder := 1, id := packet.id
    packet := if 0 < packet.id then some packet else none, edge := none }

namespace Database

variable (db : Database) (now : Int) (query : HistoryQuery)

/-- The conditions of the query on a region and a payload type. -/
def labelCondition (iata payloadTypeName : String) : Prop :=
  (upperTrim query.iata = "" ∨ toUpper iata = upperTrim query.iata) ∧
    (upperTrim query.payloadTypeName = "" ∨ toUpper payloadTypeName = upperTrim query.payloadTypeName)

instance (iata payloadTypeName : String) : Decidable (labelCondition query iata payloadTypeName) := by
  unfold labelCondition
  infer_instance

/-- `edgeWhere`, without the cursor. -/
def chatEdgeCondition (edge : EdgeEvent) : Prop :=
  query.fromMs ≤ edge.heardAt ∧ edge.heardAt ≤ boundedHistoryTo now query.toMs ∧
    edge.messageText ≠ "" ∧ labelCondition query edge.iata edge.payloadTypeName

instance : DecidablePred (chatEdgeCondition now query) := fun edge => by
  unfold chatEdgeCondition
  infer_instance

/-- `packetWhere`, without the cursor. -/
def chatPacketCondition (packet : PacketObservation) : Prop :=
  query.fromMs ≤ packet.heardAt ∧ packet.heardAt ≤ boundedHistoryTo now query.toMs ∧
    packet.messageText ≠ "" ∧ (∀ edge ∈ db.edges, edge.observationID ≠ packet.id) ∧
    labelCondition query packet.iata packet.payloadTypeName

instance : DecidablePred (chatPacketCondition db now query) := fun packet => by
  unfold chatPacketCondition
  infer_instance

/-- The union of the two tables under the conditions of the query. -/
def chatUnion : List HistoryEvent :=
  (db.joinedEdges.filter fun edge => chatEdgeCondition now query edge).map routedEvent ++
    (db.observations.filter fun packet => chatPacketCondition db now query packet).map observerEvent

/-- `PublicChatEvents`. -/
def publicChatEvents : List HistoryEvent :=
  let limit := if query.limit ≤ 0 ∨ 2500 < query.limit then 1000 else query.limit
  (((db.chatUnion now query).filter fun event =>
    Beyond HistoryCursor.ChatBefore query.cursor event.cursor).insertionSort chatOrder).take
      limit.toNat

/-- Edges and observations have row identifiers. -/
structure ChatRowIDs (db : Database) : Prop where
  edges : db.RowIDs
  nodup : (db.observations.map PacketObservation.id).Nodup
  positive : ∀ packet ∈ db.observations, 0 < packet.id

variable {db now query}

/-- Rows of the union have different positions. -/
theorem ChatRowIDs.nodup_chatUnion (h : db.ChatRowIDs) :
    ((db.chatUnion now query).map HistoryEvent.cursor).Nodup := by
  unfold chatUnion
  rw [List.map_append, List.map_map, List.map_map]
  refine List.Nodup.append ?_ ?_ ?_
  · have hids : ((db.joinedEdges.filter fun edge => chatEdgeCondition now query edge).map
        EdgeEvent.id).Nodup :=
      (map_id_joinedEdges ▸ h.edges.nodup).sublist (List.Sublist.map _ List.filter_sublist)
    refine List.Nodup.of_map HistoryCursor.id ?_
    rw [List.map_map]
    exact hids
  · have hids : ((db.observations.filter fun packet => chatPacketCondition db now query packet).map
        PacketObservation.id).Nodup :=
      h.nodup.sublist (List.Sublist.map _ List.filter_sublist)
    refine List.Nodup.of_map HistoryCursor.id ?_
    rw [List.map_map]
    exact hids
  · -- an edge and an observation differ in the type
    intro cursor hedge hpacket
    obtain ⟨edge, -, rfl⟩ := List.mem_map.mp hedge
    obtain ⟨packet, -, heq⟩ := List.mem_map.mp hpacket
    exact absurd (congrArg HistoryCursor.typeOrder heq) (show (1 : Int) ≠ 2 by decide)

theorem ChatRowIDs.length_chatUnion_le (db : Database) (now : Int) (query : HistoryQuery) :
    (db.chatUnion now query).length ≤ db.edges.length + db.observations.length := by
  unfold chatUnion
  rw [List.length_append, List.length_map, List.length_map]
  refine Nat.add_le_add ((List.length_filter_le ..).trans ?_) (List.length_filter_le ..)
  exact (List.length_map _).le

/-- The rows of the query in order. -/
theorem ChatRowIDs.pairwise (h : db.ChatRowIDs) :
    ((db.chatUnion now query).insertionSort chatOrder).Pairwise fun a b =>
      a.cursor.ChatBefore b.cursor := by
  refine pairwise_sorted chatOrder_total chatOrder_trans (fun a b hle hne => ?_) h.nodup_chatUnion
  have hdiffer : ¬(a.cursor.heardAt = b.cursor.heardAt ∧ a.cursor.typeOrder = b.cursor.typeOrder ∧
      a.cursor.id = b.cursor.id) := by
    intro heq
    refine hne ?_
    generalize a.cursor = x at heq ⊢
    generalize b.cursor = y at heq ⊢
    obtain ⟨_, _, _⟩ := x
    obtain ⟨_, _, _⟩ := y
    dsimp only at heq
    rw [heq.1, heq.2.1, heq.2.2]
  unfold chatOrder HistoryCursor.ChatBefore at hle
  unfold HistoryCursor.ChatBefore
  omega

/-- What `PublicChatEvents` returns are the rows beyond its cursor. -/
theorem publicChatEvents_eq (db : Database) (now : Int) (query : HistoryQuery) :
    db.publicChatEvents now query =
      (rowsBeyond HistoryCursor.ChatBefore HistoryEvent.cursor query.cursor
        ((db.chatUnion now query).insertionSort chatOrder)).take
          (if query.limit ≤ 0 ∨ 2500 < query.limit then 1000 else query.limit).toNat := by
  unfold publicChatEvents rowsBeyond
  rw [filter_insertionSort chatOrder_total chatOrder_trans]

end Database

end CartoLive.Store
