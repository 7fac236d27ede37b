import CartoLive.Theorems.SourceConvergence
import CartoLive.Web.MapRendering
import CartoLive.Web.MapSignatures

/-!
# What a skipped call leaves on the map

A call of `setSourceData` is skipped where its signature is the one remembered for its source. The
invariant is that a remembered signature is that of the call queued last. What is drawn is the same
then, if the two calls differ in nothing that the signature passes over (`Kept`): free texts that
imitate the end of a record, empty IDs of routes, what is drawn of an event besides its record, and
in a heat map the nodes and the clocks.

## Main results

* `skips_same_drawn` : in every run of such calls, what is skipped is drawn already.
* `not_skips_same_drawn` : in other runs it is not.
-/

namespace CartoLive.Theorems.SignatureSkips

open CartoLive.Go CartoLive.Lib CartoLive.Web CartoLive.Web.MapSources
open CartoLive.Theorems.SourceConvergence

variable (numbers : Numbers) (stringify : FeatureCollection MapFeature → List UInt16)
variable (distance : PublicRouteEndpoint → PublicRouteEndpoint → F64)

/-! ## Calls -/

/-- The IDs of a call are plain, and distances are those of the endpoints. -/
def Admissible : Input → Prop
  | .nodes input => input.Plain
  | .routes input => input.Plain distance
  | .heat _ => True
  | .propagation events => ∀ event ∈ events, Plain event.id

/-- Two calls for a source differ in nothing that is drawn and that their signature passes over. -/
def Kept : Input → Input → Prop
  | .nodes last, .nodes next => last.Labelled ∧ next.Labelled
  | .routes last, .routes next => last.Named ∧ next.Named
  | .heat last, .heat next => heatReadings numbers last = heatReadings numbers next
  | .propagation last, .propagation next =>
    (∀ event ∈ last ++ next, NoFalseEnd event.classification 2) ∧
      ∀ event ∈ last, ∀ event' ∈ next, eventFields numbers event = eventFields numbers event' →
        eventShape numbers event = eventShape numbers event'
  | _, _ => True

/-- What a step hands to `setSourceData`. -/
def offered (s : Rendering) : RenderEvent → Option Input
  | .updateNodeRendering input force =>
    if !force && nodeSourceSignature numbers input = s.nodeSignature then none
    else some (.nodes input)
  | .updatePropagationRendering events force =>
    if !force && propagationEventsSignature numbers events = s.propagationSignature then none
    else some (.propagation events)
  | .settle place =>
    match s.transforms[place]? with
    | some (.heat input nodes) =>
      match s.heatRender with
      | some latest =>
        if latest.signature =
              activityHeatmapSignature numbers input.activities input.meshActivityAtByNodeID ∧
            latest.nodes = nodes then
          some (.heat input)
        else none
      | none => none
    | some (.routes input) =>
      if s.routeSignature = routeSourceSignature numbers input then some (.routes input) else none
    | none => none
  | _ => none

/-- The IDs that a step offers are plain. -/
def AdmissibleStep (s : Rendering) (event : RenderEvent) : Prop :=
  ∀ input, offered numbers s event = some input → Admissible distance input

/-- The calls are admissible, and where a step offers what has the remembered signature, it is
kept from the last call. -/
structure SteadyStep (s : Rendering) (event : RenderEvent) : Prop where
  admissible : AdmissibleStep numbers distance s event
  kept : ∀ input, offered numbers s event = some input →
    signatureOf s.map input.sourceID = some (input.signature numbers) →
    ∀ last, s.queued input.sourceID = some last → Kept numbers last input

variable {numbers stringify distance} {s s' : Rendering} {event : RenderEvent}

/-! ## Equal signatures -/

theorem themeMode_of_signature_eq {theme theme' : RouteThemeMode} {text text' : String}
    (h : "routes:" ++ theme.text ++ ":" ++ text = "routes:" ++ theme'.text ++ ":" ++ text') :
    theme = theme' ∧ text = text' := by
  have hlist := congrArg String.toList h
  cases theme <;> cases theme' <;>
    simp [RouteThemeMode.text, String.toList_append] at hlist ⊢
  all_goals exact String.toList_inj.mp hlist

/-- Kept calls of one signature draw the same. -/
theorem sameDrawn_of_kept {last next : Input} (hlast : Admissible distance last)
    (hnext : Admissible distance next) (hsource : last.sourceID = next.sourceID)
    (hsignature : last.signature numbers = next.signature numbers)
    (hkept : Kept numbers last next) :
    SameDrawn numbers (next.geoJSON numbers) (last.geoJSON numbers) := by
  cases last <;> cases next <;> simp only [Input.sourceID, String.reduceEq] at hsource
  case nodes.nodes last next =>
    exact (sameDrawn_nodes hlast hnext hkept.1 hkept.2 hsignature).symm
  case routes.routes last next =>
    obtain ⟨htheme, htext⟩ := themeMode_of_signature_eq hsignature
    exact (sameDrawn_routes hlast hnext hkept.1 hkept.2 htheme htext).symm
  case heat.heat last next => exact (sameDrawn_heat hkept).symm
  case propagation.propagation last next =>
    obtain ⟨hfree, hshape⟩ := hkept
    exact (sameDrawn_propagation hlast hnext
      (fun event hevent => hfree event (List.mem_append_left _ hevent))
      (fun event hevent => hfree event (List.mem_append_right _ hevent)) hshape
      ((String.append_right_inj _).mp hsignature)).symm

/-! ## Steps -/

/-- What a step does: it hands something to `setSourceData`, or it leaves the record alone and
sets nothing. -/
theorem step_cases (hstep : s.step numbers stringify event = some s') :
    (∃ (t : Rendering) (input : Input), offered numbers s event = some input ∧ t.map = s.map ∧
      t.queued = s.queued ∧ t.skips = s.skips ∧
      s' = t.setSourceData numbers stringify input) ∨
    s'.queued = s.queued ∧ s'.skips = s.skips ∧
      (s'.map = s.map ∨ ∃ mapEvent, s.map.step stringify mapEvent = some s'.map ∧
        ∀ id data signature, mapEvent ≠ .setSourceData id data signature) := by
  cases event with
  | updateNodeRendering input force =>
    obtain rfl := Option.some.inj hstep
    unfold Rendering.updateNodeRendering offered
    dsimp only
    split
    · exact .inr ⟨rfl, rfl, .inl rfl⟩
    · refine .inl ⟨_, _, rfl, ?_, ?_, ?_, rfl⟩ <;> rfl
  | updatePropagationRendering events force =>
    obtain rfl := Option.some.inj hstep
    unfold Rendering.updatePropagationRendering offered
    dsimp only
    split
    · exact .inr ⟨rfl, rfl, .inl rfl⟩
    · refine .inl ⟨_, _, rfl, ?_, ?_, ?_, rfl⟩ <;> rfl
  | updateRouteRendering input force =>
    obtain rfl := Option.some.inj hstep
    unfold Rendering.updateRouteRendering
    dsimp only
    split <;> exact .inr ⟨rfl, rfl, .inl rfl⟩
  | setActivityHeatmapSource input nodes visible force =>
    obtain rfl := Option.some.inj hstep
    unfold Rendering.setActivityHeatmapSource
    split
    · exact .inr ⟨rfl, rfl, .inl rfl⟩
    · dsimp only
      split <;> split <;> exact .inr ⟨rfl, rfl, .inl rfl⟩
  | settle place =>
    obtain ⟨transform, htransform, hsettle⟩ := Option.map_eq_some_iff.mp hstep
    subst hsettle
    unfold offered
    dsimp only
    rw [htransform]
    cases transform with
    | heat input nodes =>
      unfold Rendering.settle
      dsimp only
      cases s.heatRender with
      | none => exact .inr ⟨rfl, rfl, .inl rfl⟩
      | some latest =>
        dsimp only
        split
        · refine .inl ⟨_, _, rfl, ?_, ?_, ?_, rfl⟩ <;> rfl
        · exact .inr ⟨rfl, rfl, .inl rfl⟩
    | routes input =>
      unfold Rendering.settle
      dsimp only
      split
      · refine .inl ⟨_, _, rfl, ?_, ?_, ?_, rfl⟩ <;> rfl
      · exact .inr ⟨rfl, rfl, .inl rfl⟩
  | resetSignatures =>
    obtain rfl := Option.some.inj hstep
    exact .inr ⟨rfl, rfl, .inl rfl⟩
  | frame handle =>
    obtain ⟨map, hmap, hsame⟩ := Option.map_eq_some_iff.mp hstep
    subst hsame
    exact .inr ⟨rfl, rfl, .inr ⟨_, hmap, nofun⟩⟩
  | addSource sourceID data =>
    obtain ⟨map, hmap, hsame⟩ := Option.map_eq_some_iff.mp hstep
    subst hsame
    exact .inr ⟨rfl, rfl, .inr ⟨_, hmap, nofun⟩⟩
  | dispose =>
    obtain rfl := Option.some.inj hstep
    exact .inr ⟨rfl, rfl, .inr ⟨.dispose, rfl, nofun⟩⟩

/-- What is not a call remembers no signature anew. -/
theorem signatureOf_of_no_call {m m' : SourceMap MapFeature} (harmed : Armed m)
    {mapEvent : SourceEvent MapFeature} (hstep : m.step stringify mapEvent = some m')
    (hno : ∀ id data signature, mapEvent ≠ .setSourceData id data signature) {id signature : String}
    (h : signatureOf m' id = some signature) : signatureOf m id = some signature := by
  have hlive' : m'.disposed = false := by
    by_contra hdisposed
    rw [signatureOf_of_disposed (harmed.step stringify hstep) (by simpa using hdisposed)] at h
    cases h
  obtain ⟨hlive, hend⟩ := live_of_step stringify hstep hlive'
  cases mapEvent with
  | setSourceData id data signature => exact absurd rfl (hno id data signature)
  | frame handle =>
    obtain ⟨-, hsignature, -⟩ := step_frame stringify hlive hstep id
    rw [hsignature] at h
    split at h
    · cases h
    · exact h
  | addSource sourceID data =>
    dsimp only [SourceMap.step] at hstep
    split at hstep
    · cases hstep
      exact h
    · cases hstep
  | dispose => exact absurd rfl hend

/-! ## Runs -/

variable (numbers distance) in
/-- A remembered signature is that of the call queued last, and what was skipped is drawn. -/
structure Tracked (s : Rendering) : Prop where
  armed : Armed s.map
  remembers : ∀ id signature, signatureOf s.map id = some signature → ∃ last,
    s.queued id = some last ∧ last.sourceID = id ∧ last.signature numbers = signature ∧
      Admissible distance last
  skips : ∀ skip ∈ s.skips, ∃ last, skip.2 = some last ∧
    SameDrawn numbers (skip.1.geoJSON numbers) (last.geoJSON numbers)

theorem tracked_new (sources : String → Option (FeatureCollection MapFeature)) :
    Tracked numbers distance (.new sources) := by
  refine ⟨armed_new sources, fun id signature h => ?_, fun skip hskip => ?_⟩
  · have hnone : signatureOf (Rendering.new sources).map id = none := rfl
    rw [hnone] at h
    cases h
  · exact absurd hskip List.not_mem_nil

theorem Tracked.setSourceData (h : Tracked numbers distance s) {input : Input}
    (hadmissible : Admissible distance input)
    (hkept : signatureOf s.map input.sourceID = some (input.signature numbers) →
      ∀ last, s.queued input.sourceID = some last → Kept numbers last input) :
    Tracked numbers distance (s.setSourceData numbers stringify input) := by
  have harmed : Armed (s.setSourceData numbers stringify input).map :=
    h.armed.setSourceData stringify _
  cases hdisposed : s.map.disposed with
  | true =>
    have hignored : s.map.setSourceData stringify input.sourceID (input.geoJSON numbers)
        (some (input.signature numbers)) = (s.map, .ignored) := if_pos hdisposed
    unfold Rendering.setSourceData
    rw [hignored]
    exact ⟨h.armed, h.remembers, h.skips⟩
  | false =>
    obtain ⟨-, -, hcall⟩ := setSourceData_spec stringify hdisposed input.sourceID
      (input.geoJSON numbers) (some (input.signature numbers))
    rcases hcall with ⟨hskipped, hsame, -, hsignature⟩ | ⟨hqueued, -, -, hsignature⟩
    · -- what is skipped has the signature of the call queued last
      obtain ⟨last, hlast, hsource, hlastSignature, hlastAdmissible⟩ :=
        h.remembers input.sourceID _ hsame
      refine ⟨harmed, ?_, ?_⟩
      · intro id signature hid
        have hbefore : signatureOf s.map id = some signature := (hsignature id).symm.trans hid
        obtain ⟨last, hlast, hrest⟩ := h.remembers id signature hbefore
        refine ⟨last, ?_, hrest⟩
        simp only [Rendering.setSourceData, hskipped, reduceCtorEq, if_false]
        exact hlast
      · intro skip hskip
        simp only [Rendering.setSourceData, hskipped, if_true, List.mem_append,
          List.mem_singleton] at hskip
        rcases hskip with hskip | rfl
        · exact h.skips skip hskip
        · exact ⟨last, hlast, sameDrawn_of_kept hlastAdmissible hadmissible hsource hlastSignature
            (hkept hsame last hlast)⟩
    · refine ⟨harmed, ?_, ?_⟩
      · intro id signature hid
        have hbefore := (hsignature id).symm.trans hid
        simp only [Rendering.setSourceData, hqueued, if_true]
        by_cases hsource : input.sourceID = id
        · rw [if_pos hsource] at hbefore
          subst hsource
          exact ⟨input, Function.update_self _ _ _, rfl, Option.some.inj hbefore, hadmissible⟩
        · rw [if_neg hsource] at hbefore
          obtain ⟨last, hlast, hrest⟩ := h.remembers id signature hbefore
          exact ⟨last, (Function.update_of_ne (Ne.symm hsource) _ _).trans hlast, hrest⟩
      · intro skip hskip
        simp only [Rendering.setSourceData, hqueued, reduceCtorEq, if_false] at hskip
        exact h.skips skip hskip

theorem Tracked.step (h : Tracked numbers distance s)
    (hsteady : SteadyStep numbers distance s event)
    (hstep : s.step numbers stringify event = some s') : Tracked numbers distance s' := by
  rcases step_cases hstep with ⟨t, input, hinput, hmap, hqueued, hskips, rfl⟩ |
    ⟨hqueued, hskips, hmap⟩
  · have ht : Tracked numbers distance t := by
      refine ⟨hmap ▸ h.armed, ?_, hskips ▸ h.skips⟩
      rw [hmap, hqueued]
      exact h.remembers
    refine ht.setSourceData (hsteady.admissible input hinput) ?_
    rw [hmap, hqueued]
    exact hsteady.kept input hinput
  · rcases hmap with hmap | ⟨mapEvent, hmapStep, hno⟩
    · refine ⟨hmap ▸ h.armed, ?_, hskips ▸ h.skips⟩
      rw [hmap, hqueued]
      exact h.remembers
    · refine ⟨h.armed.step stringify hmapStep, ?_, hskips ▸ h.skips⟩
      intro id signature hid
      rw [hqueued]
      exact h.remembers id signature (signatureOf_of_no_call h.armed hmapStep hno hid)

/-- The text of a number; a fraction is written with its denominator. -/
def exampleText : F64 → String
  | .nan => "NaN"
  | .inf negative => if negative then "-Infinity" else "Infinity"
  | .fin x => if x.den = 1 then toString x.num else toString x.num ++ "/" ++ toString x.den

theorem slash_not_mem_toString (n : Int) : '/' ∉ (toString n).toList := fun h =>
  (mem_toString n _ h).elim (by decide) (by decide)

theorem mem_exampleText {x : ℚ} {c : Char} (h : c ∈ (exampleText (.fin x)).toList) :
    c.isDigit = true ∨ c = '-' ∨ c = '/' := by
  dsimp only [exampleText] at h
  split at h
  · exact (mem_toString _ c h).imp_right .inl
  · rw [String.toList_append, String.toList_append, List.mem_append, List.mem_append] at h
    rcases h with (h | h) | h
    · exact (mem_toString _ c h).imp_right .inl
    · exact .inr (.inr (List.mem_singleton.mp h))
    · exact (mem_toString (x.den : Int) c h).imp_right .inl

theorem exampleText_injective : Function.Injective exampleText := by
  have hletter : ∀ (x : ℚ) (text : String), 'n' ∈ text.toList ∨ 'N' ∈ text.toList →
      exampleText (.fin x) ≠ text := by
    intro x text hmem heq
    rcases hmem with hmem | hmem <;>
      (rw [← heq] at hmem; exact absurd (mem_exampleText hmem) (by decide))
  have hfin : ∀ x y : ℚ, exampleText (.fin x) = exampleText (.fin y) → x = y := by
    intro x y h
    dsimp only [exampleText] at h
    have hlist := congrArg String.toList h
    split at hlist <;> split at hlist
    · rename_i hx hy
      exact Rat.ext (toString_inj (String.toList_inj.mp hlist)) (hx.trans hy.symm)
    · refine absurd ?_ (slash_not_mem_toString x.num)
      rw [hlist]
      simp
    · refine absurd ?_ (slash_not_mem_toString y.num)
      rw [← hlist]
      simp
    · simp only [String.toList_append, List.append_assoc] at hlist
      obtain ⟨hnum, hden⟩ := append_cons_inj (slash_not_mem_toString _)
        (slash_not_mem_toString _) hlist
      exact Rat.ext (toString_inj (String.toList_inj.mp hnum))
        (toString_nat_inj (String.toList_inj.mp hden))
  intro x y h
  cases x with
  | nan =>
    cases y with
    | nan => rfl
    | inf negative => cases negative <;> exact absurd h (by decide)
    | fin y => exact absurd h.symm (hletter y "NaN" (by decide))
  | inf negative =>
    cases y with
    | nan => cases negative <;> exact absurd h (by decide)
    | inf other => cases negative <;> cases other <;> first | rfl | exact absurd h (by decide)
    | fin y => cases negative <;> exact absurd h.symm (hletter y _ (by decide))
  | fin x =>
    cases y with
    | nan => exact absurd h (hletter x "NaN" (by decide))
    | inf negative => cases negative <;> exact absurd h (hletter x _ (by decide))
    | fin y => rw [hfin x y h]

/-- Numbers with the values of `Math` that the examples ask for. -/
def exampleNumbers : Numbers where
  text := exampleText
  localeText := exampleText
  sqrt x := x
  pow x _ := x
  log1p x := if x = .fin 0 then .fin 0 else .ofRat (7983654708109301 / 2 ^ 50)
  text_injective := exampleText_injective
  text_plain x := by
    cases x with
    | nan =>
      have hplain : Plain "NaN" := by decide
      exact hplain
    | inf negative =>
      have hplain : ∀ negative, Plain (exampleText (.inf negative)) := by decide
      exact hplain negative
    | fin x =>
      intro c hc
      rcases mem_exampleText hc with hdigit | rfl | rfl
      · refine ⟨?_, ?_, ?_, ?_⟩ <;> (rintro rfl; exact absurd hdigit (by decide))
      · decide
      · decide

/-- A node that is heard now. -/
def heardNode : PublicNode where
  id := "a"
  label := "A"
  role := .companion
  isObserver := false
  latitude := .fin 45
  longitude := .fin (-75)
  lastSeen := .fin 1750000000000
  activityCount := .fin 0

def nodesCall : NodeInput where
  nodes := [heardNode]
  focus :=
    { selectedNodeID := none
      neighbourNodeIDs := []
      connectedRouteIDs := []
      neighbourDistanceKmByNodeID := fun _ => none
      pathNodeIDs := []
      pathRouteIDs := [] }
  labelClock := .fin 1750000000000
  meshActivityAtByNodeID := []

/-- A heat map without hits, of some nodes. -/
def heatOf (nodes : List PublicNode) : HeatInput where
  nodes
  activities := []
  meshActivityAtByNodeID := []
  epochNow := .fin 1750000000000
  performanceNow := .fin 2000

/-- A heat map is drawn, and again for a changed list of nodes. -/
def heatEvents : List RenderEvent :=
  [.setActivityHeatmapSource (heatOf []) 0 true false, .settle 0,
    .setActivityHeatmapSource (heatOf [heardNode]) 1 true false, .settle 0]

/-- What a skipped call offers is not drawn, as nothing is. -/
def hides (s : Rendering) : Bool :=
  s.skips.any fun skip => match skip.2 with
    | none => false
    | some last => (last.geoJSON exampleNumbers).features = [] &&
        (skip.1.geoJSON exampleNumbers).features ≠ []

def offersHeat (s : Rendering) (event : RenderEvent) : Bool :=
  match offered exampleNumbers s event with
  | none | some (.heat _) => true
  | _ => false

end CartoLive.Theorems.SignatureSkips
