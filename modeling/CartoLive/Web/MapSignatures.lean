import CartoLive.Lib.Joined
import CartoLive.Web.MapSources

/-!
# What the signatures of the map tell

The parts of a signature are records, and the parts of a record are fields. IDs, numbers and flags
hold none of the characters that join them, so a signature tells the records and their fields
apart, unless a free text among them imitates the end of a record. From two equal signatures
follows that the same nodes, routes and events are drawn; of a heat map it follows from what is
read of the nodes that are active, whatever its signature.
-/

namespace CartoLive.Web.MapSources

open CartoLive.Go CartoLive.Lib
open CartoLive.Web.Graph (sortedTexts)

variable (numbers : Numbers)

/-! ## What is drawn -/

/-- What the layers read of the properties. -/
def Properties.drawn : Properties → Properties
  | .node properties => .node { properties with neighborDistanceKm := none }
  | .route properties => .route properties
  | .heat properties => .heat { properties with label := "" }
  | .propagation properties =>
    .propagation
      { properties with routeId := "", confidence := "", score := .fin 0, distanceKm := .fin 0 }

/-- A feature as it is drawn, with five decimals of its coordinates. -/
structure Look where
  id : String
  properties : Properties
  coordinates : List (String × String)

def fiveDecimals (place : F64 × F64) : String × String :=
  (fixed numbers place.1 5, fixed numbers place.2 5)

def MapFeature.look (feature : MapFeature) : Look where
  id := feature.id
  properties := feature.properties.drawn
  coordinates := feature.coordinates.map (fiveDecimals numbers)

def looks (data : FeatureCollection MapFeature) : List Look :=
  data.features.map (MapFeature.look numbers)

/-- The same features are drawn. -/
def SameDrawn (a b : FeatureCollection MapFeature) : Prop :=
  ∀ look, look ∈ looks numbers a ↔ look ∈ looks numbers b

variable {numbers}

theorem SameDrawn.symm {a b : FeatureCollection MapFeature} (h : SameDrawn numbers a b) :
    SameDrawn numbers b a := fun look => (h look).symm

/-! ## Plain texts -/

/-- A text without the characters that join the parts of a signature. -/
def Plain (text : String) : Prop :=
  ∀ c ∈ text.toList, c ≠ ':' ∧ c ≠ '|' ∧ c ≠ '~' ∧ c ≠ ','

instance (text : String) : Decidable (Plain text) :=
  decidable_of_iff
    (text.toList.all (fun c => c ≠ ':' && c ≠ '|' && c ≠ '~' && c ≠ ',') = true)
    (by simp [Plain, and_assoc])

theorem Plain.not_mem {text : String} (h : Plain text) {s : Char}
    (hs : s ∈ [':', '|', '~', ',']) : s ∉ text.toList := by
  intro hmem
  obtain ⟨hcolon, hbar, htilde, hcomma⟩ := h s hmem
  simp [hcolon, hbar, htilde, hcomma] at hs

theorem plain_numeral {text : String} (h : ∀ c ∈ text.toList, IsNumeral c) : Plain text := by
  intro c hc
  rcases h c hc with hdigit | rfl | rfl
  · refine ⟨?_, ?_, ?_, ?_⟩ <;> (rintro rfl; exact absurd hdigit (by decide))
  · decide
  · decide

theorem plain_fixed (x : F64) (digits : Nat) : Plain (fixed numbers x digits) := by
  unfold fixed
  split
  · split
    · exact plain_numeral fun c hc => isNumeral_of_mem_toFixed hc
    · exact numbers.text_plain _
  · exact numbers.text_plain _

theorem plain_toString (n : Nat) : Plain (toString n) :=
  plain_numeral fun c hc => (mem_toString (n : Int) c hc).imp_right .inr

theorem toString_nat_inj {m n : Nat} (h : toString m = toString n) : m = n :=
  Int.ofNat.inj (toString_inj (m := (m : Int)) (n := (n : Int)) h)

theorem plain_flagText (flag : Bool) : Plain (flagText flag) := by
  cases flag <;> decide

theorem flagText_injective : Function.Injective flagText := by
  unfold Function.Injective
  decide

theorem NodeRole.plain_text (role : NodeRole) : Plain role.text := by
  cases role <;> decide

theorem NodeRole.text_injective : Function.Injective NodeRole.text := by
  intro a b
  cases a <;> cases b <;> decide

/-! ## Joined texts -/

section Joined

variable {separator : String} {s : Char} (hseparator : separator.toList = [s])

include hseparator

theorem toList_joined (texts : List String) :
    (separator.intercalate texts).toList = [s].intercalate (texts.map String.toList) := by
  rw [String.toList_intercalate, hseparator]

/-- Fields around one that may hold the separator. -/
theorem middle_inj {front front' back back' : List String} {text text' : String}
    (hfront : front.length = front'.length) (hback : back.length = back'.length)
    (h : ∀ k ∈ front ++ back, s ∉ k.toList) (h' : ∀ k ∈ front' ++ back', s ∉ k.toList)
    (heq : separator.intercalate (front ++ text :: back) =
      separator.intercalate (front' ++ text' :: back')) :
    front = front' ∧ text = text' ∧ back = back' := by
  have hlists := congrArg String.toList heq
  rw [toList_joined hseparator, toList_joined hseparator, List.map_append, List.map_append,
    List.map_cons, List.map_cons] at hlists
  have hfree : ∀ {front back : List String}, (∀ k ∈ front ++ back, s ∉ k.toList) →
      ∀ l ∈ front.map String.toList ++ back.map String.toList, s ∉ l := by
    intro front back h l hl
    rw [← List.map_append] at hl
    obtain ⟨k, hk, rfl⟩ := List.mem_map.mp hl
    exact h k hk
  obtain ⟨hfronts, htext, hbacks⟩ := intercalate_middle_inj (by simpa using hfront)
    (by simpa using hback) (hfree h) (hfree h') hlists
  have hinjective := List.map_injective_iff.mpr fun (a b : String) h => String.toList_inj.mp h
  exact ⟨hinjective hfronts, String.toList_inj.mp htext, hinjective hbacks⟩

/-- Texts that are not empty and do not hold the separator. -/
theorem joined_inj {texts texts' : List String}
    (h : ∀ text ∈ texts, text.toList ≠ [] ∧ s ∉ text.toList)
    (h' : ∀ text ∈ texts', text.toList ≠ [] ∧ s ∉ text.toList)
    (heq : separator.intercalate texts = separator.intercalate texts') : texts = texts' := by
  have hlists := congrArg String.toList heq
  rw [toList_joined hseparator, toList_joined hseparator] at hlists
  have hinjective := List.map_injective_iff.mpr fun (a b : String) h => String.toList_inj.mp h
  exact hinjective (intercalate_inj_of_ne_nil (List.forall_mem_map.mpr h)
    (List.forall_mem_map.mpr h') hlists)

end Joined

theorem perm_sortedTexts (texts : List String) : (sortedTexts texts).Perm texts :=
  List.perm_insertionSort _ _

theorem not_mem_stableSetSignature {values : List String} (h : ∀ value ∈ values, Plain value) :
    '~' ∉ (stableSetSignature values).toList := by
  intro hmem
  rw [stableSetSignature, toList_joined (s := ',') rfl] at hmem
  rcases mem_of_mem_intercalate hmem with hcomma | ⟨l, hl, hc⟩
  · exact absurd hcomma (by decide)
  · obtain ⟨value, hvalue, rfl⟩ := List.mem_map.mp hl
    exact (h value ((perm_sortedTexts values).mem_iff.mp hvalue)).not_mem (by decide) hc

/-- A set without an empty ID can be told from its signature. -/
theorem perm_of_stableSetSignature_eq {values values' : List String}
    (h : ∀ value ∈ values, value ≠ "" ∧ Plain value)
    (h' : ∀ value ∈ values', value ≠ "" ∧ Plain value)
    (heq : stableSetSignature values = stableSetSignature values') : values.Perm values' := by
  have hgood : ∀ {values : List String}, (∀ value ∈ values, value ≠ "" ∧ Plain value) →
      ∀ value ∈ sortedTexts values, value.toList ≠ [] ∧ ',' ∉ value.toList := by
    intro values h value hvalue
    obtain ⟨hne, hplain⟩ := h value ((perm_sortedTexts values).mem_iff.mp hvalue)
    exact ⟨fun hnil => hne (String.toList_inj.mp hnil), hplain.not_mem (by decide)⟩
  have hsorted : sortedTexts values = sortedTexts values' := joined_inj rfl (hgood h) (hgood h') heq
  exact (perm_sortedTexts values).symm.trans (hsorted ▸ perm_sortedTexts values')

/-! ## Records -/

/-- The fields of a record around one that is a free text. -/
structure Fields where
  front : List String
  free : String
  back : List String

namespace Fields

def text (fields : Fields) : String := ":".intercalate (fields.front ++ fields.free :: fields.back)

end Fields

/-- A free text does not imitate the end of its record, where some fields follow it. -/
def NoFalseEnd (text : String) (following : Nat) : Prop :=
  ∀ x y, text.toList = x ++ '|' :: y → x.count ':' < following

theorem Plain.noFalseEnd {text : String} (h : Plain text) (following : Nat) :
    NoFalseEnd text following := fun x y hxy =>
  absurd (by rw [hxy]; simp) (h.not_mem (s := '|') (by decide))

/-- A record of so many fields in front of the free one and behind it. -/
structure Fields.Wf (fields : Fields) (m n : Nat) : Prop where
  front : fields.front.length = m
  back : fields.back.length = n
  plain : ∀ k ∈ fields.front ++ fields.back, Plain k
  free : NoFalseEnd fields.free n

variable {m n : Nat}

theorem Fields.Wf.text_inj {fields fields' : Fields} (h : fields.Wf m n) (h' : fields'.Wf m n)
    (heq : fields.text = fields'.text) : fields = fields' := by
  obtain ⟨hfront, hfree, hback⟩ := middle_inj (s := ':') rfl (h.front.trans h'.front.symm)
    (h.back.trans h'.back.symm) (fun k hk => (h.plain k hk).not_mem (by decide))
    (fun k hk => (h'.plain k hk).not_mem (by decide)) heq
  cases fields
  cases fields'
  dsimp only at hfront hfree hback
  rw [hfront, hfree, hback]

/-- A record is complete, and is not before a `|` that it holds. -/
theorem Fields.Wf.complete {fields : Fields} (h : fields.Wf m n) :
    m + n ≤ fields.text.toList.count ':' ∧
      ∀ x y, fields.text.toList = x ++ '|' :: y → ¬ m + n ≤ x.count ':' := by
  have htext : fields.text.toList = [':'].intercalate (fields.front.map String.toList ++
      fields.free.toList :: fields.back.map String.toList) := by
    rw [Fields.text, toList_joined (s := ':') rfl, List.map_append, List.map_cons]
  have hplain : ∀ {s : Char}, s ∈ [':', '|', '~', ','] →
      ∀ l ∈ fields.front.map String.toList ++ fields.back.map String.toList, s ∉ l := by
    intro s hs l hl
    rw [← List.map_append] at hl
    obtain ⟨k, hk, rfl⟩ := List.mem_map.mp hl
    exact (h.plain k hk).not_mem hs
  have hm : (fields.front.map String.toList).length = m := by rw [List.length_map, h.front]
  have hn : (fields.back.map String.toList).length = n := by rw [List.length_map, h.back]
  rw [htext]
  constructor
  · rw [← hm, ← hn]
    exact add_length_le_count_intercalate _ _ _ _
  · intro x y hxy hle
    have hlt := count_lt_of_free_field (by decide)
      (fun k hk => hplain (by decide) k (List.mem_append_left _ hk)) (hplain (by decide))
      (hn.symm ▸ h.free) hxy
    omega

/-- Records can be told from what they make together. -/
theorem records_inj (hfields : 0 < m + n) {texts texts' : List String}
    (h : ∀ text ∈ texts, ∃ fields : Fields, fields.Wf m n ∧ fields.text = text)
    (h' : ∀ text ∈ texts', ∃ fields : Fields, fields.Wf m n ∧ fields.text = text)
    (heq : "|".intercalate texts = "|".intercalate texts') : texts = texts' := by
  have hlists := congrArg String.toList heq
  rw [toList_joined (s := '|') rfl, toList_joined (s := '|') rfl] at hlists
  have hcomplete : ∀ {texts : List String},
      (∀ text ∈ texts, ∃ fields : Fields, fields.Wf m n ∧ fields.text = text) →
      ∀ l ∈ texts.map String.toList, m + n ≤ l.count ':' ∧
        ∀ x y, l = x ++ '|' :: y → ¬ m + n ≤ x.count ':' := by
    intro texts h l hl
    obtain ⟨text, htext, rfl⟩ := List.mem_map.mp hl
    obtain ⟨fields, hwf, rfl⟩ := h text htext
    exact hwf.complete
  have hnil : ¬ m + n ≤ ([] : List Char).count ':' := by
    rw [List.count_nil]
    omega
  have hinjective := List.map_injective_iff.mpr fun (a b : String) h => String.toList_inj.mp h
  exact hinjective (intercalate_inj_of_complete hnil (hcomplete h) (hcomplete h') hlists)

theorem perm_of_sorted_records (hfields : 0 < m + n) {texts texts' : List String}
    (h : ∀ text ∈ texts, ∃ fields : Fields, fields.Wf m n ∧ fields.text = text)
    (h' : ∀ text ∈ texts', ∃ fields : Fields, fields.Wf m n ∧ fields.text = text)
    (heq : "|".intercalate (sortedTexts texts) = "|".intercalate (sortedTexts texts')) :
    texts.Perm texts' := by
  have hsorted : sortedTexts texts = sortedTexts texts' := records_inj hfields
    (fun text htext => h text ((perm_sortedTexts texts).mem_iff.mp htext))
    (fun text htext => h' text ((perm_sortedTexts texts').mem_iff.mp htext)) heq
  exact (perm_sortedTexts texts).symm.trans (hsorted ▸ perm_sortedTexts texts')

/-! ## Nodes -/

/-- The IDs of a focus are plain. -/
structure NodeFocus.Plain (focus : NodeFocus) : Prop where
  selected : MapSources.Plain (focus.selectedNodeID.getD "")
  neighbours : ∀ id ∈ focus.neighbourNodeIDs, MapSources.Plain id
  connected : ∀ id ∈ focus.connectedRouteIDs, MapSources.Plain id
  pathNodes : ∀ id ∈ focus.pathNodeIDs, MapSources.Plain id
  pathRoutes : ∀ id ∈ focus.pathRouteIDs, MapSources.Plain id

structure NodeInput.Plain (input : NodeInput) : Prop where
  focus : input.focus.Plain
  nodes : ∀ node ∈ input.nodes, MapSources.Plain node.id

/-- No label of a node on the map imitates the end of its record. -/
def NodeInput.Labelled (input : NodeInput) : Prop :=
  ∀ node ∈ input.nodes, isMappableNode node = true → NoFalseEnd node.label 10

variable (numbers) in
def nodeFields (input : NodeInput) (node : PublicNode) : Fields where
  front := [node.id]
  free := node.label
  back := nodeRenderMarks numbers node input.focus input.labelClock input.meshActivityAtByNodeID

theorem plain_roundCoord (value : F64) : Plain (roundCoord numbers value) := by
  unfold roundCoord
  split
  · exact plain_fixed value 5
  · decide

theorem wf_nodeFields {input : NodeInput} (hplain : input.Plain) {node : PublicNode}
    (hnode : node ∈ input.nodes) (hlabel : NoFalseEnd node.label 10) :
    (nodeFields numbers input node).Wf 1 10 where
  front := rfl
  back := rfl
  plain := by
    simp only [nodeFields, nodeRenderMarks, List.cons_append, List.nil_append, List.forall_mem_cons,
      List.not_mem_nil, false_imp_iff, implies_true, and_true]
    exact ⟨hplain.nodes node hnode, node.role.plain_text, plain_flagText _, plain_roundCoord _,
      plain_roundCoord _, plain_flagText _, plain_flagText _, plain_flagText _, plain_flagText _,
      plain_toString _, plain_toString _⟩
  free := hlabel

theorem isFinite_of_isMappableNode {node : PublicNode} (h : isMappableNode node = true) :
    isFinite node.latitude = true ∧ isFinite node.longitude = true := by
  unfold isMappableNode isMappableLatLng at h
  simp only [Bool.and_eq_true] at h
  exact ⟨h.1.1.1.1.1.1.1, h.1.1.1.1.1.1.2⟩

theorem roundCoord_eq {value : F64} (h : isFinite value = true) :
    roundCoord numbers value = fixed numbers value 5 := if_pos h

/-- A node looks as its record says. -/
theorem look_eq_of_nodeFields_eq {a b : NodeInput} {node node' : PublicNode}
    (hnode : isMappableNode node = true) (hnode' : isMappableNode node' = true)
    (h : nodeFields numbers a node = nodeFields numbers b node') :
    (nodeFeature a node).look numbers = (nodeFeature b node').look numbers := by
  obtain ⟨hlat, hlng⟩ := isFinite_of_isMappableNode hnode
  obtain ⟨hlat', hlng'⟩ := isFinite_of_isMappableNode hnode'
  simp only [nodeFields, nodeRenderMarks, Fields.mk.injEq, List.cons.injEq, and_true,
    roundCoord_eq hlat, roundCoord_eq hlng, roundCoord_eq hlat', roundCoord_eq hlng'] at h
  obtain ⟨hid, hlabel, hrole, hobserver, hlatitude, hlongitude, hselected, hneighbor, hpath,
    hdimmed, hstale, hfresh⟩ := h
  have hselected := flagText_injective hselected
  have hneighbor := flagText_injective hneighbor
  have hpath := flagText_injective hpath
  have hproperties : (nodeFeatureProperties node a.focus a.labelClock a.meshActivityAtByNodeID) =
      { nodeFeatureProperties node' b.focus b.labelClock b.meshActivityAtByNodeID with
        neighborDistanceKm := a.focus.neighbourDistanceKmByNodeID node.id } := by
    simp only [nodeFeatureProperties, NodeProperties.mk.injEq, true_and]
    exact ⟨hid, hlabel, by rw [hlabel], NodeRole.text_injective hrole,
      by rw [NodeRole.text_injective hrole], hselected, hneighbor, hpath,
      by rw [Bool.decide_or, Bool.decide_or, Bool.decide_or, Bool.decide_or, hselected, hneighbor,
        hpath],
      flagText_injective hdimmed, flagText_injective hobserver, toString_nat_inj hstale,
      toString_nat_inj hfresh⟩
  simp only [MapFeature.look, nodeFeature, Properties.drawn, hproperties, List.map_cons,
    List.map_nil, fiveDecimals, hlatitude, hlongitude, hid]

/-- The parts of the focus in front of those of the nodes. -/
def nodeFocusParts (focus : NodeFocus) : List String :=
  [focus.selectedNodeID.getD "", stableSetSignature focus.neighbourNodeIDs,
    stableSetSignature focus.pathNodeIDs, stableSetSignature focus.pathRouteIDs]

theorem not_mem_nodeFocusParts {focus : NodeFocus} (h : focus.Plain) :
    ∀ k ∈ nodeFocusParts focus ++ [], '~' ∉ k.toList := by
  simp only [nodeFocusParts, List.append_nil, List.forall_mem_cons, List.not_mem_nil,
    false_imp_iff, implies_true, and_true]
  exact ⟨h.selected.not_mem (by decide), not_mem_stableSetSignature h.neighbours,
    not_mem_stableSetSignature h.pathNodes, not_mem_stableSetSignature h.pathRoutes⟩

variable (numbers) in
def nodeRecords (input : NodeInput) : List String :=
  (input.nodes.filter isMappableNode).map fun node => (nodeFields numbers input node).text

variable (numbers) in
theorem nodeSourceSignature_eq (input : NodeInput) : nodeSourceSignature numbers input =
    "~".intercalate (nodeFocusParts input.focus ++
      ["|".intercalate (sortedTexts (nodeRecords numbers input))]) := rfl

/-- The records of the nodes at the end of their signature. -/
theorem perm_of_nodeSourceSignature_eq {a b : NodeInput} (ha : a.Plain) (hb : b.Plain)
    (hlabels : a.Labelled) (hlabels' : b.Labelled)
    (h : nodeSourceSignature numbers a = nodeSourceSignature numbers b) :
    (nodeRecords numbers a).Perm (nodeRecords numbers b) := by
  have hrecords : ∀ {input : NodeInput}, input.Plain → input.Labelled →
      ∀ text ∈ nodeRecords numbers input,
        ∃ fields : Fields, fields.Wf 1 10 ∧ fields.text = text := by
    intro input hplain hlabels text htext
    obtain ⟨node, hnode, rfl⟩ := List.mem_map.mp htext
    obtain ⟨hmem, hmappable⟩ := List.mem_filter.mp hnode
    exact ⟨_, wf_nodeFields hplain hmem (hlabels node hmem hmappable), rfl⟩
  rw [nodeSourceSignature_eq, nodeSourceSignature_eq] at h
  obtain ⟨-, hnodes, -⟩ := middle_inj (s := '~') rfl (by rfl) (by rfl)
    (not_mem_nodeFocusParts ha.focus) (not_mem_nodeFocusParts hb.focus) h
  exact perm_of_sorted_records (by decide) (hrecords ha hlabels) (hrecords hb hlabels') hnodes

/-- The same nodes are drawn. -/
theorem sameDrawn_nodes {a b : NodeInput} (ha : a.Plain) (hb : b.Plain) (hlabels : a.Labelled)
    (hlabels' : b.Labelled) (h : nodeSourceSignature numbers a = nodeSourceSignature numbers b) :
    SameDrawn numbers (nodesToGeoJSON a) (nodesToGeoJSON b) := by
  have hsub : ∀ {a b : NodeInput}, a.Plain → b.Plain → a.Labelled → b.Labelled →
      nodeSourceSignature numbers a = nodeSourceSignature numbers b →
      ∀ look, look ∈ looks numbers (nodesToGeoJSON a) →
        look ∈ looks numbers (nodesToGeoJSON b) := by
    intro a b ha hb hlabels hlabels' h look hlook
    have hperm := perm_of_nodeSourceSignature_eq ha hb hlabels hlabels' h
    rw [looks, nodesToGeoJSON, List.map_map] at hlook ⊢
    obtain ⟨node, hnode, rfl⟩ := List.mem_map.mp hlook
    obtain ⟨node', hnode', htext⟩ := List.mem_map.mp (hperm.mem_iff.mp (List.mem_map_of_mem hnode))
    obtain ⟨hmem, hmappable⟩ := List.mem_filter.mp hnode
    obtain ⟨hmem', hmappable'⟩ := List.mem_filter.mp hnode'
    have hfields := (wf_nodeFields hb hmem' (hlabels' node' hmem' hmappable')).text_inj
      (wf_nodeFields ha hmem (hlabels node hmem hmappable)) htext
    exact List.mem_map.mpr ⟨node', hnode',
      look_eq_of_nodeFields_eq hmappable' hmappable hfields⟩
  exact fun look => ⟨hsub ha hb hlabels hlabels' h look, hsub hb ha hlabels' hlabels h.symm look⟩

/-! ## Routes -/

/-- The IDs of a call are plain, and a distance is that of its endpoints. -/
structure RouteInput.Plain (distance : PublicRouteEndpoint → PublicRouteEndpoint → F64)
    (input : RouteInput) : Prop where
  focus : input.focus.Plain
  selected : MapSources.Plain (input.selectedRouteID.getD "")
  routes : ∀ route ∈ input.routes, MapSources.Plain route.id
  sources : ∀ route ∈ input.routes, MapSources.Plain route.source.nodeId
  targets : ∀ route ∈ input.routes, MapSources.Plain route.target.nodeId
  distances : ∀ route ∈ input.routes, route.distanceKm = distance route.source route.target

/-- No route has an empty ID, and none is looked for. -/
structure RouteInput.Named (input : RouteInput) : Prop where
  routes : ∀ route ∈ input.routes, route.id ≠ ""
  connected : "" ∉ input.focus.connectedRouteIDs
  path : "" ∉ input.focus.pathRouteIDs

variable (numbers) in
def routeFields (input : RouteInput) (route : PublicRoute) : Fields where
  front := []
  free := route.id
  back := [numbers.text route.frequencyBucket,
    toString (routeFreshnessLevel route.lastHeard input.now), route.source.nodeId,
    numbers.text route.source.lat, numbers.text route.source.lng, route.target.nodeId,
    numbers.text route.target.lat, numbers.text route.target.lng]

variable (numbers) in
def routeRecords (input : RouteInput) : List String :=
  input.routes.map fun route => (routeFields numbers input route).text

def routeFocusParts (input : RouteInput) : List String :=
  [input.selectedRouteID.getD "", input.focus.selectedNodeID.getD "",
    stableSetSignature input.focus.connectedRouteIDs, stableSetSignature input.focus.pathRouteIDs]

variable (numbers) in
theorem routeSourceSignature_eq (input : RouteInput) : routeSourceSignature numbers input =
    "~".intercalate (routeFocusParts input ++
      ["|".intercalate (sortedTexts (routeRecords numbers input))]) := rfl

variable {distance : PublicRouteEndpoint → PublicRouteEndpoint → F64}

theorem not_mem_routeFocusParts {input : RouteInput} (h : input.Plain distance) :
    ∀ k ∈ routeFocusParts input ++ [], '~' ∉ k.toList := by
  simp only [routeFocusParts, List.append_nil, List.forall_mem_cons, List.not_mem_nil,
    false_imp_iff, implies_true, and_true]
  exact ⟨h.selected.not_mem (by decide), h.focus.selected.not_mem (by decide),
    not_mem_stableSetSignature h.focus.connected, not_mem_stableSetSignature h.focus.pathRoutes⟩

theorem wf_routeFields {input : RouteInput} (hplain : input.Plain distance) {route : PublicRoute}
    (hroute : route ∈ input.routes) : (routeFields numbers input route).Wf 0 8 where
  front := rfl
  back := rfl
  plain := by
    simp only [routeFields, List.nil_append, List.forall_mem_cons, List.not_mem_nil,
      false_imp_iff, implies_true, and_true]
    exact ⟨numbers.text_plain _, plain_toString _, hplain.sources route hroute,
      numbers.text_plain _, numbers.text_plain _, hplain.targets route hroute,
      numbers.text_plain _, numbers.text_plain _⟩
  free := (hplain.routes route hroute).noFalseEnd 8

/-- What the parts of a signature tell of the focus. -/
structure SameFocus (a b : RouteInput) : Prop where
  selectedRoute : a.selectedRouteID.getD "" = b.selectedRouteID.getD ""
  selectedNode : a.focus.selectedNodeID.getD "" = b.focus.selectedNodeID.getD ""
  connected : a.focus.connectedRouteIDs.Perm b.focus.connectedRouteIDs
  path : a.focus.pathRouteIDs.Perm b.focus.pathRouteIDs

theorem SameFocus.symm {a b : RouteInput} (h : SameFocus a b) : SameFocus b a :=
  ⟨h.selectedRoute.symm, h.selectedNode.symm, h.connected.symm, h.path.symm⟩

theorem of_routeSourceSignature_eq {a b : RouteInput} (ha : a.Plain distance)
    (hb : b.Plain distance) (hnamed : a.Named) (hnamed' : b.Named)
    (h : routeSourceSignature numbers a = routeSourceSignature numbers b) :
    SameFocus a b ∧ (routeRecords numbers a).Perm (routeRecords numbers b) := by
  have hrecords : ∀ {input : RouteInput}, input.Plain distance →
      ∀ text ∈ routeRecords numbers input,
        ∃ fields : Fields, fields.Wf 0 8 ∧ fields.text = text := by
    intro input hplain text htext
    obtain ⟨route, hroute, rfl⟩ := List.mem_map.mp htext
    exact ⟨_, wf_routeFields hplain hroute, rfl⟩
  have hset : ∀ {values : List String}, "" ∉ values → (∀ value ∈ values, Plain value) →
      ∀ value ∈ values, value ≠ "" ∧ Plain value :=
    fun hne hplain value hvalue => ⟨fun hnil => hne (hnil ▸ hvalue), hplain value hvalue⟩
  rw [routeSourceSignature_eq, routeSourceSignature_eq] at h
  obtain ⟨hfocus, hroutes, -⟩ := middle_inj (s := '~') rfl (by rfl) (by rfl)
    (not_mem_routeFocusParts ha) (not_mem_routeFocusParts hb) h
  simp only [routeFocusParts, List.cons.injEq, and_true] at hfocus
  obtain ⟨hroute, hnode, hconnected, hpath⟩ := hfocus
  refine ⟨⟨hroute, hnode, ?_, ?_⟩,
    perm_of_sorted_records (by decide) (hrecords ha) (hrecords hb) hroutes⟩
  · exact perm_of_stableSetSignature_eq (hset hnamed.connected ha.focus.connected)
      (hset hnamed'.connected hb.focus.connected) hconnected
  · exact perm_of_stableSetSignature_eq (hset hnamed.path ha.focus.pathRoutes)
      (hset hnamed'.path hb.focus.pathRoutes) hpath

theorem some_eq_iff_getD {id : String} (hne : id ≠ "") {selected : Option String} :
    some id = selected ↔ selected.getD "" = id := by
  cases selected with
  | none => exact ⟨nofun, fun h => absurd h.symm hne⟩
  | some other => exact ⟨fun h => (Option.some.inj h).symm, fun h => congrArg some h.symm⟩

/-- A route looks as its record and the focus say. -/
theorem routeFeature_eq {a b : RouteInput} (hfocus : SameFocus a b)
    (htheme : a.themeMode = b.themeMode) {route route' : PublicRoute} (hne : route.id ≠ "")
    (hdistance : route.distanceKm = distance route.source route.target)
    (hdistance' : route'.distanceKm = distance route'.source route'.target)
    (h : routeFields numbers a route = routeFields numbers b route') :
    routeFeature numbers a route = routeFeature numbers b route' ∧ route.source = route'.source ∧
      route.target = route'.target := by
  simp only [routeFields, Fields.mk.injEq, List.cons.injEq, and_true, true_and] at h
  obtain ⟨hid, hbucket, hfreshness, hsource, hsourceLat, hsourceLng, htarget, htargetLat,
    htargetLng⟩ := h
  have hsource : route.source = route'.source := by
    cases hs : route.source
    cases hs' : route'.source
    rw [hs, hs'] at hsource hsourceLat hsourceLng
    rw [PublicRouteEndpoint.mk.injEq]
    exact ⟨hsource, numbers.text_injective hsourceLat, numbers.text_injective hsourceLng⟩
  have htarget : route.target = route'.target := by
    cases ht : route.target
    cases ht' : route'.target
    rw [ht, ht'] at htarget htargetLat htargetLng
    rw [PublicRouteEndpoint.mk.injEq]
    exact ⟨htarget, numbers.text_injective htargetLat, numbers.text_injective htargetLng⟩
  have hhas : hasFocusedRoute a = hasFocusedRoute b := by
    unfold hasFocusedRoute
    have hpath : a.focus.pathRouteIDs ≠ [] ↔ b.focus.pathRouteIDs ≠ [] := by
      rw [← List.length_pos_iff, ← List.length_pos_iff, hfocus.path.length_eq]
    rw [hfocus.selectedRoute, hfocus.selectedNode, decide_eq_decide.mpr hpath]
  have hselected : some route'.id = a.selectedRouteID ↔ some route'.id = b.selectedRouteID := by
    rw [some_eq_iff_getD (hid ▸ hne), some_eq_iff_getD (hid ▸ hne), hfocus.selectedRoute]
  refine ⟨?_, hsource, htarget⟩
  simp only [routeFeature, routeDisplayColor, hid, hselected, hfocus.connected.mem_iff,
    hfocus.path.mem_iff, hhas, toString_nat_inj hfreshness, numbers.text_injective hbucket, htheme,
    hsource, htarget, hdistance, hdistance']

/-- The same routes are drawn. -/
theorem sameDrawn_routes {a b : RouteInput} (ha : a.Plain distance) (hb : b.Plain distance)
    (hnamed : a.Named) (hnamed' : b.Named) (htheme : a.themeMode = b.themeMode)
    (h : routeSourceSignature numbers a = routeSourceSignature numbers b) :
    SameDrawn numbers (routesToGeoJSON numbers a) (routesToGeoJSON numbers b) := by
  obtain ⟨hfocus, hperm⟩ := of_routeSourceSignature_eq ha hb hnamed hnamed' h
  have hsub : ∀ {a b : RouteInput}, a.Plain distance → b.Plain distance → a.Named →
      a.themeMode = b.themeMode → SameFocus a b →
      (routeRecords numbers a).Perm (routeRecords numbers b) →
      ∀ look, look ∈ looks numbers (routesToGeoJSON numbers a) →
        look ∈ looks numbers (routesToGeoJSON numbers b) := by
    intro a b ha hb hnamed htheme hfocus hperm look hlook
    obtain ⟨feature, hfeature, rfl⟩ := List.mem_map.mp hlook
    obtain ⟨route, hroute, rfl⟩ := List.mem_map.mp hfeature
    obtain ⟨hmem, hmappable⟩ := List.mem_filter.mp hroute
    obtain ⟨route', hmem', htext⟩ := List.mem_map.mp (hperm.mem_iff.mp (List.mem_map_of_mem hmem))
    have hfields := (wf_routeFields hb hmem').text_inj (wf_routeFields ha hmem) htext
    obtain ⟨hsame, hsource, htarget⟩ := routeFeature_eq hfocus htheme (hnamed.routes route hmem)
      (ha.distances route hmem) (hb.distances route' hmem') hfields.symm
    rw [hsame]
    refine List.mem_map_of_mem (List.mem_map_of_mem (List.mem_filter.mpr ⟨hmem', ?_⟩))
    rw [← hsource, ← htarget]
    exact hmappable
  exact fun look => ⟨hsub ha hb hnamed htheme hfocus hperm look,
    hsub hb ha hnamed' htheme.symm hfocus.symm hperm.symm look⟩

/-! ## The heat map -/

/-- What is read of a node for the heat map, as it is seen from the two clocks. -/
structure HeatReading where
  id : String
  color : String
  coordinates : String × String
  activityCount : F64
  /-- How many hits are of the last minute. -/
  recentHits : Nat
  /-- How far the glow of the last hit is, unless that hit is still to come. -/
  glow : Option (Option F64)
  /-- The age of the last activity, up to 15 minutes. -/
  age : Option F64
  deriving DecidableEq

/-- How far a glow is. -/
def glowProgress (ageMs : F64) : Option F64 :=
  if ageMs.lt (.fin 0) then none
  else some (max (.fin 0) (min (.fin 1) (dividedBy ageMs (.fin 6500))))

def recentAge (ageMs : F64) : Option F64 := if ageMs.le (.fin 900000) then some ageMs else none

variable (numbers) in
def heatReading (input : HeatInput) (node : PublicNode) : HeatReading :=
  let activity := lookUp input.activities node.id
  { id := node.id
    color := activityHeatColor node.role node.isObserver
    coordinates := fiveDecimals numbers (node.longitude, node.latitude)
    activityCount := max (.fin 0) node.activityCount
    recentHits := (recentHits activity input.performanceNow).length
    glow := activity.map fun activity =>
      glowProgress (minus input.performanceNow activity.lastAt)
    age := recentAge
      (activityAgeMs node (lookUp input.meshActivityAtByNodeID node.id) input.epochNow) }

variable (numbers) in
/-- What is read of the nodes that are active. -/
def heatReadings (input : HeatInput) : List HeatReading :=
  ((input.nodes.filter (isActiveHeatmapNode input)).filter isMappableNode).map
    (heatReading numbers input)

theorem nodeActivityGlow_eq (ageMs : F64) : nodeActivityGlow numbers ageMs =
    match glowProgress ageMs with
    | none => .fin 1
    | some progress => numbers.pow (minus (.fin 1) progress) (.ofRat (72 / 100)) := by
  unfold nodeActivityGlow glowProgress
  split <;> rfl

theorem recency_eq (ageMs : F64) : recency numbers ageMs =
    match recentAge ageMs with
    | none => .fin 0
    | some ageMs =>
      numbers.pow (minus (.fin 1) (dividedBy ageMs (.fin 900000))) (.ofRat (72 / 100)) := by
  unfold recency recentAge
  split <;> rfl

theorem nodeHeat_eq {a b : HeatInput} {node node' : PublicNode}
    (h : heatReading numbers a node = heatReading numbers b node') :
    nodeHeat numbers a node = nodeHeat numbers b node' := by
  simp only [heatReading, HeatReading.mk.injEq] at h
  obtain ⟨-, -, -, hcount, hhits, hglow, hage⟩ := h
  have hspark : hitSpark numbers (lookUp a.activities node.id) a.performanceNow =
      hitSpark numbers (lookUp b.activities node'.id) b.performanceNow := by
    cases hactivity : lookUp a.activities node.id <;>
      cases hactivity' : lookUp b.activities node'.id <;> rw [hactivity, hactivity'] at hglow
    · rfl
    · cases hglow
    · cases hglow
    · simp only [hitSpark, nodeActivityGlow_eq, Option.some.inj hglow]
  simp only [nodeHeat, activityHeatIntensity, hspark, hhits, hcount, recency_eq, hage]

theorem map_eq_of_map_eq {α β γ δ : Type} {f : α → γ} {g : β → γ} {r : α → δ} {r' : β → δ}
    {l : List α} {l' : List β} (h : ∀ x ∈ l, ∀ y ∈ l', r x = r' y → f x = g y)
    (heq : l.map r = l'.map r') : l.map f = l'.map g := by
  induction l generalizing l' with
  | nil =>
    have hnil : l' = [] := List.map_eq_nil_iff.mp heq.symm
    rw [hnil]
    rfl
  | cons x l ih =>
    cases l' with
    | nil => cases heq
    | cons y l' =>
      obtain ⟨hfirst, hrest⟩ := List.cons.inj heq
      rw [List.map_cons, List.map_cons, h x List.mem_cons_self y List.mem_cons_self hfirst,
        ih (fun x hx y hy => h x (List.mem_cons_of_mem _ hx) y (List.mem_cons_of_mem _ hy)) hrest]

variable (numbers) in
/-- The feature of a node, as it is drawn, with the intensity that sorts it. -/
def heatLook (input : HeatInput) (node : PublicNode) : Option (F64 × Look) :=
  (activityHeatFeature numbers input node).map (Prod.map id (MapFeature.look numbers))

theorem heatLook_eq {a b : HeatInput} {node node' : PublicNode}
    (h : heatReading numbers a node = heatReading numbers b node') :
    heatLook numbers a node = heatLook numbers b node' := by
  have hheat := nodeHeat_eq h
  simp only [heatReading, HeatReading.mk.injEq] at h
  obtain ⟨hid, hcolor, hplace, -⟩ := h
  unfold heatLook activityHeatFeature
  rw [hheat]
  dsimp only
  split
  · rfl
  · simp only [Option.map_some, Prod.map_apply, id_eq, MapFeature.look, Properties.drawn, hid,
      hcolor, hplace, List.map_cons, List.map_nil]

/-- A feature is drawn as it is sorted. -/
theorem looks_heat (input : HeatInput) : looks numbers (activityHeatmapToGeoJSON numbers input) =
    (((((input.nodes.filter (isActiveHeatmapNode input)).filter isMappableNode).filterMap
      (heatLook numbers input)).insertionSort fun a b => a.1.lt b.1 = false).map Prod.snd).take
        420 := by
  have hsort : ∀ l : List (F64 × MapFeature),
      (l.insertionSort fun a b => a.1.lt b.1 = false).map (Prod.map id (MapFeature.look numbers)) =
        (l.map (Prod.map id (MapFeature.look numbers))).insertionSort
          fun a b => a.1.lt b.1 = false :=
    fun l => List.map_insertionSort _ _ _ l fun _ _ _ _ => Iff.rfl
  have hfilter : ∀ l : List PublicNode, l.filterMap (heatLook numbers input) =
      (l.filterMap (activityHeatFeature numbers input)).map
        (Prod.map id (MapFeature.look numbers)) := by
    intro l
    rw [List.map_filterMap]
    rfl
  rw [hfilter, ← hsort, looks, activityHeatmapToGeoJSON, List.map_take, List.map_map, List.map_map]
  rfl

/-- The same heat is drawn where the same is read of the nodes that are active. -/
theorem sameDrawn_heat {a b : HeatInput} (h : heatReadings numbers a = heatReadings numbers b) :
    SameDrawn numbers (activityHeatmapToGeoJSON numbers a)
      (activityHeatmapToGeoJSON numbers b) := by
  have hlooks := map_eq_of_map_eq (f := heatLook numbers a) (g := heatLook numbers b)
    (fun node _ node' _ hreading => heatLook_eq hreading) h
  have hsame := congrArg (List.filterMap id) hlooks
  rw [List.filterMap_map, List.filterMap_map, Function.id_comp, Function.id_comp] at hsame
  intro look
  rw [looks_heat, looks_heat, hsame]

/-! ## Propagation events -/

variable (numbers) in
def eventFields (event : PublicPropagationEvent) : Fields where
  front := [event.id, numbers.text event.eventAt]
  free := event.classification
  back := [fixed numbers event.score 2, toString event.segments.length]

/-- What is drawn of a segment, and its distance. -/
structure SegmentShape where
  distanceKm : F64
  source : String × String
  target : String × String
  deriving DecidableEq

/-- What is drawn of an event besides its record. -/
structure EventShape where
  color : String
  distanceKm : F64
  segments : List SegmentShape
  deriving DecidableEq

variable (numbers) in
def segmentShape (segment : PublicRouteSegment) : SegmentShape where
  distanceKm := segment.distanceKm
  source := fiveDecimals numbers (segment.source.lng, segment.source.lat)
  target := fiveDecimals numbers (segment.target.lng, segment.target.lat)

variable (numbers) in
def eventShape (event : PublicPropagationEvent) : EventShape where
  color := propagationEventColor event
  distanceKm := event.distanceKm
  segments := event.segments.map (segmentShape numbers)

variable {events events' : List PublicPropagationEvent} {event event' : PublicPropagationEvent}

theorem propagationEventsSignature_eq : propagationEventsSignature numbers events =
    "|".intercalate (events.map fun event => (eventFields numbers event).text) := rfl

theorem wf_eventFields (hid : Plain event.id) (hfree : NoFalseEnd event.classification 2) :
    (eventFields numbers event).Wf 2 2 where
  front := rfl
  back := rfl
  plain := by
    simp only [eventFields, List.cons_append, List.nil_append, List.forall_mem_cons,
      List.not_mem_nil, false_imp_iff, implies_true, and_true]
    exact ⟨hid, numbers.text_plain _, plain_fixed _ 2, plain_toString _⟩
  free := hfree

/-- Which segment is the longest is a matter of the distances. -/
theorem longestPropagationSegmentIndex_eq
    (h : event.segments.map (segmentShape numbers) = event'.segments.map (segmentShape numbers)) :
    longestPropagationSegmentIndex event = longestPropagationSegmentIndex event' := by
  have hindex : ∀ event : PublicPropagationEvent, longestPropagationSegmentIndex event =
      ((event.segments.map (segmentShape numbers)).zipIdx.foldl
        (fun (longest : Nat × F64) entry => if longest.2.lt entry.1.distanceKm
          then (entry.2, entry.1.distanceKm) else longest) (0, .fin (-1))).1 := by
    intro event
    rw [List.zipIdx_map, List.foldl_map]
    rfl
  rw [hindex, hindex, h]

variable (numbers) in
/-- The features of an event, as they are drawn. -/
def eventLooks (event : PublicPropagationEvent) : List Look :=
  looks numbers (propagationEventsToGeoJSON numbers [event])

theorem eventLooks_eq (h : eventFields numbers event = eventFields numbers event')
    (hshape : eventShape numbers event = eventShape numbers event') :
    eventLooks numbers event = eventLooks numbers event' := by
  simp only [eventFields, Fields.mk.injEq, List.cons.injEq, and_true] at h
  obtain ⟨⟨hid, -⟩, hclassification, -⟩ := h
  simp only [eventShape, EventShape.mk.injEq] at hshape
  obtain ⟨hcolor, hdistance, hsegments⟩ := hshape
  have hlooks : ∀ event : PublicPropagationEvent, eventLooks numbers event =
      (event.segments.map (segmentShape numbers)).mapIdx fun index shape =>
        { id := event.id ++ ":" ++ toString index
          properties := .propagation
            { id := event.id
              routeId := ""
              classification := event.classification
              confidence := ""
              score := .fin 0
              distanceKm := .fin 0
              color := propagationEventColor event
              label := if index = longestPropagationSegmentIndex event
                then propagationEventLabel numbers event else "" }
          coordinates := [shape.source, shape.target] } := by
    intro event
    rw [eventLooks, looks, propagationEventsToGeoJSON, List.flatMap_singleton,
      List.mapIdx_eq_zipIdx_map, List.mapIdx_eq_zipIdx_map, List.zipIdx_map, List.map_map,
      List.map_map]
    rfl
  rw [hlooks, hlooks, hsegments]
  simp only [hid, hclassification, hcolor, longestPropagationSegmentIndex_eq hsegments,
    propagationEventLabel, hdistance]

theorem looks_propagation : looks numbers (propagationEventsToGeoJSON numbers events) =
    (events.map (eventLooks numbers)).flatten := by
  induction events with
  | nil => rfl
  | cons event events ih =>
    rw [List.map_cons, List.flatten_cons, ← ih, eventLooks, looks, looks, looks, ← List.map_append]
    simp only [propagationEventsToGeoJSON, List.flatMap_cons, List.flatMap_nil, List.append_nil]

/-- The same events are drawn where those of one record have one shape. -/
theorem sameDrawn_propagation (hid : ∀ event ∈ events, Plain event.id)
    (hid' : ∀ event ∈ events', Plain event.id)
    (hfree : ∀ event ∈ events, NoFalseEnd event.classification 2)
    (hfree' : ∀ event ∈ events', NoFalseEnd event.classification 2)
    (hshape : ∀ event ∈ events, ∀ event' ∈ events',
      eventFields numbers event = eventFields numbers event' →
        eventShape numbers event = eventShape numbers event')
    (h : propagationEventsSignature numbers events = propagationEventsSignature numbers events') :
    SameDrawn numbers (propagationEventsToGeoJSON numbers events)
      (propagationEventsToGeoJSON numbers events') := by
  have hrecords : ∀ {events : List PublicPropagationEvent}, (∀ event ∈ events, Plain event.id) →
      (∀ event ∈ events, NoFalseEnd event.classification 2) →
      ∀ text ∈ events.map fun event => (eventFields numbers event).text,
        ∃ fields : Fields, fields.Wf 2 2 ∧ fields.text = text := by
    intro events hid hfree text htext
    obtain ⟨event, hevent, rfl⟩ := List.mem_map.mp htext
    exact ⟨_, wf_eventFields (hid event hevent) (hfree event hevent), rfl⟩
  rw [propagationEventsSignature_eq, propagationEventsSignature_eq] at h
  have hlooks := map_eq_of_map_eq (f := eventLooks numbers) (g := eventLooks numbers)
    (fun event hevent event' hevent' htext => ?_)
    (records_inj (by decide) (hrecords hid hfree) (hrecords hid' hfree') h)
  · intro look
    rw [looks_propagation, looks_propagation, hlooks]
  · have hfields := (wf_eventFields (hid event hevent) (hfree event hevent)).text_inj
      (wf_eventFields (hid' event' hevent') (hfree' event' hevent')) htext
    exact eventLooks_eq hfields (hshape event hevent event' hevent' hfields)

end CartoLive.Web.MapSources
