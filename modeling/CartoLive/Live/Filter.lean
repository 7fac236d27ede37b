import CartoLive.Live.Display

/-!
# The public region allow-list

`PublicIATAFilter` and what it does to a stored state (`FilterState`), from
`public_cache.go`, with the map inclusion decisions of `inclusion.go`.

An allow-list carries the two facts its constructor establishes: it is enabled
exactly when it names a region, and the regions it names are in comparison form.
-/

namespace CartoLive.Live

open CartoLive.Go

/-- `PublicIATAFilter`. -/
structure PublicIATAFilter where
  enabled : Bool
  exact : List String
  enabled_iff : enabled = true ↔ exact ≠ []
  normal : ∀ item ∈ exact, item ≠ "" ∧ upperTrim item = item

/-- `NewPublicIATAFilter`. -/
def newPublicIATAFilter (items : List String) : PublicIATAFilter where
  enabled := (items.map upperTrim).any (· ≠ "")
  exact := (items.map upperTrim).filter (· ≠ "")
  enabled_iff := by
    rw [ne_eq, List.filter_eq_nil_iff, List.any_eq_true]
    simp
  normal := by
    intro item h
    obtain ⟨hmem, hne⟩ := List.mem_filter.mp h
    obtain ⟨raw, -, rfl⟩ := List.mem_map.mp hmem
    exact ⟨by simpa using hne, upperTrim_upperTrim raw⟩

namespace PublicIATAFilter

variable (f : PublicIATAFilter)

/-- `PublicIATAFilter.Allows`. -/
def allows (iata : String) : Bool :=
  if !f.enabled then true
  else if upperTrim iata = "" then false
  else upperTrim iata ∈ f.exact

@[simp] theorem allows_upperTrim (iata : String) : f.allows (upperTrim iata) = f.allows iata := by
  simp only [allows, upperTrim_upperTrim]

theorem allows_of_disabled {f : PublicIATAFilter} (h : f.enabled = false) (iata : String) :
    f.allows iata = true := by
  simp [allows, h]

/-- `allowedIATAs`. -/
def allowedIATAs (items : List String) : List String :=
  (items.map upperTrim).filter fun item => item ≠ "" ∧ f.allows item

/-- Every region that `allowedIATAs` keeps is allowed. -/
theorem allows_of_mem_allowedIATAs {f : PublicIATAFilter} {items : List String} {iata : String}
    (h : iata ∈ f.allowedIATAs items) : f.allows iata = true := by
  have := (List.mem_filter.mp h).2
  simp only [decide_eq_true_eq] at this
  exact this.2

end PublicIATAFilter

/-! ## Filtering a stored state -/

/-- One more of a counter. -/
def Counter.bump (c : Counter) (key : String) (by_ : Int) : Counter :=
  match c with
  | [] => [(key, by_)]
  | (k, n) :: rest => if k = key then (k, n + by_) :: rest else (k, n) :: Counter.bump rest key by_

/-- The counters of the items that the allow-list rejects. -/
def countExcluded {α : Type} (iata : α → String) (f : PublicIATAFilter) (items : List α)
    (excluded : Counter) : Counter :=
  items.foldl (fun c item => if f.allows (iata item) then c else c.bump (toUpper (iata item)) 1)
    excluded

/-- The part of `FilterState` that narrows a node to the allowed regions. -/
def filterNode (f : PublicIATAFilter) (node : Node) : Option Node :=
  let iatas := f.allowedIATAs node.iatasHeardIn
  if node.iatasHeardIn.length = 0 ∨ 0 < iatas.length then some { node with iatasHeardIn := iatas }
  else none

/-- `PublicIATAFilter.FilterState`: the filtered state and the counters of what
was left out. -/
def PublicIATAFilter.filterState (f : PublicIATAFilter) (state : State) : State × Counter :=
  if !f.enabled then (state, [])
  else
    let excluded := countExcluded Observer.iata f state.observers []
    let excluded := countExcluded PacketObservation.iata f state.recentPackets excluded
    let excluded := countExcluded EdgeEvent.iata f state.recentEdgeEvents excluded
    ({ state with
        observers := state.observers.filter fun observer => f.allows observer.iata
        nodes := state.nodes.filterMap (filterNode f)
        recentPackets := state.recentPackets.filter fun packet => f.allows packet.iata
        recentEdgeEvents := state.recentEdgeEvents.filter fun edge => f.allows edge.iata },
      excluded)

/-! ## Inclusion on the map -/

section Env

variable [LiveEnv]

/-- `PublicNodeMapInclusion`. -/
def publicNodeMapInclusion (node : Node) (f : PublicIATAFilter) : PublicMapInclusion :=
  if 0 < node.iatasHeardIn.length ∧ (f.allowedIATAs node.iatasHeardIn).length = 0 then
    { mappable := false, reason := mapIncludeIATAFiltered, positionSource := "" }
  else coordinateInclusion node.latitude node.longitude mapIncludeNodePositionUsed

/-- `PublicObserverMapInclusion`. -/
def publicObserverMapInclusion (observer : Observer) (f : PublicIATAFilter) :
    PublicMapInclusion :=
  if !f.allows observer.iata then
    { mappable := false, reason := mapIncludeIATAFiltered, positionSource := "" }
  else coordinateInclusion observer.latitude observer.longitude mapIncludeObserverOnly

/-- `PublicObserverFallbackInclusion`. -/
def publicObserverFallbackInclusion (observer : Observer) (f : PublicIATAFilter) :
    PublicMapInclusion :=
  let decision := publicObserverMapInclusion observer f
  if decision.mappable then
    { decision with positionSource := mapIncludeObserverPositionUsed }
  else decision

end Env

end CartoLive.Live
