import CartoLive.Lib.Versions
import CartoLive.Live.Public

/-!
# The public state cache

`PublicStateCache` of `public_cache.go`: a full replacement from the database,
live updates applied one by one, and the mutation journal that lets a
replacement keep the updates that raced its database read.

Times are milliseconds passed in by the caller. `serialized` stands for the JSON
of a state by the state itself; marshalling is taken to succeed.
-/

namespace CartoLive.Live

open CartoLive.Lib

def publicCacheMaxNodes : Nat := 2500
def publicCacheMaxRoutes : Nat := 2500
def publicCacheMaxPulses : Nat := 240
def publicCacheMaxActivity : Nat := 240
def publicSerializationMinInterval : Int := 5000

structure PublicCacheTruncation where
  nodes : Int
  routes : Int
  recentPulses : Int
  recentActivity : Int
  deriving DecidableEq

/-- `map[string]uint64` of a mutation journal; a missing key reads as zero. -/
abbrev Journal := String → Nat

structure PublicStateCache where
  filter : PublicIATAFilter
  state : PublicLiveState
  ready : Bool
  updatedAt : Int
  fullReconciledAt : Int
  anomalies : Counter
  truncated : PublicCacheTruncation
  serialized : Option PublicLiveState
  serializedAt : Option Int
  mutationGeneration : Nat
  nodeMutations : Journal
  activityMutations : Journal
  pulseMutations : Journal
  packetCountMutation : Nat

/-- The zero `PublicLiveState`. -/
def emptyPublicLiveState : PublicLiveState :=
  { serverTime := 0
    stats :=
      { packets := 0, activeNodes := 0, activeRoutes := 0, mqttConnected := false
        mqttMessages := 0, wsClients := 0, serverTime := 0, latestSeq := 0
        resolutionBuckets := [], excludedIATAs := [], excludedRegions := [] }
    nodes := [], routes := [], recentPulses := [], recentActivity := [], updatedAt := 0 }

/-- `NewPublicStateCache`. -/
def newPublicStateCache (filter : PublicIATAFilter) : PublicStateCache :=
  { filter
    state := emptyPublicLiveState
    ready := false
    updatedAt := 0
    fullReconciledAt := 0
    anomalies := []
    truncated := { nodes := 0, routes := 0, recentPulses := 0, recentActivity := 0 }
    serialized := none
    serializedAt := none
    mutationGeneration := 0
    nodeMutations := fun _ => 0
    activityMutations := fun _ => 0
    pulseMutations := fun _ => 0
    packetCountMutation := 0 }

/-! ## Merging -/

def nodeView : View PublicNode String :=
  { key := PublicNode.id, stamp := PublicNode.lastSeen, seq := PublicNode.seq }

def activityView : View PublicActivity String :=
  { key := PublicActivity.id, stamp := PublicActivity.heardAt, seq := PublicActivity.seq }

def pulseView : View PublicRoutePulse String :=
  { key := PublicRoutePulse.id, stamp := PublicRoutePulse.heardAt, seq := PublicRoutePulse.seq }

/-- The order of merged nodes: later ones first, then by identifier. -/
def nodeBefore (a b : PublicNode) : Prop :=
  if a.lastSeen = b.lastSeen then a.id ≤ b.id else b.lastSeen < a.lastSeen

/-- The order of merged activity and pulses: later ones first, then by sequence
downwards, then by identifier. -/
def heardBefore {α : Type} (w : View α String) (a b : α) : Prop :=
  if w.stamp a = w.stamp b then
    if w.seq a = w.seq b then w.key a ≤ w.key b else w.seq b < w.seq a
  else w.stamp b < w.stamp a

instance : DecidableRel nodeBefore := fun a b => by
  unfold nodeBefore
  infer_instance

instance {α : Type} (w : View α String) : DecidableRel (heardBefore w) := fun a b => by
  unfold heardBefore
  infer_instance

/-- `mergeConcurrentPublicNodes`. -/
def mergeConcurrentPublicNodes (fresh current : List PublicNode) : List PublicNode :=
  (nodeView.merge fresh current).insertionSort nodeBefore

/-- `mergeConcurrentPublicActivity`. -/
def mergeConcurrentPublicActivity (fresh current : List PublicActivity) : List PublicActivity :=
  (activityView.merge fresh current).insertionSort (heardBefore activityView)

/-- `mergeConcurrentPublicPulses`. -/
def mergeConcurrentPublicPulses (fresh current : List PublicRoutePulse) :
    List PublicRoutePulse :=
  (pulseView.merge fresh current).insertionSort (heardBefore pulseView)

/-! ## Counters -/

/-- `mergeCounters`. -/
def mergeCounters (left right : Counter) : Counter :=
  right.foldl (fun out entry => if entry.2 = 0 then out else out.bump entry.1 entry.2) left

/-- `truncatedCount`. -/
def truncatedCount (length limit : Nat) : Int := ((length - limit : Nat) : Int)

namespace PublicStateCache

variable (c : PublicStateCache)

/-! ## Replacement -/

/-- The cached nodes that changed after a generation. -/
def nodesAfter (generation : Nat) : List PublicNode :=
  c.state.nodes.filter fun node => generation < c.nodeMutations node.id

def activityAfter (generation : Nat) : List PublicActivity :=
  c.state.recentActivity.filter fun item => generation < c.activityMutations item.id

def pulsesAfter (generation : Nat) : List PublicRoutePulse :=
  c.state.recentPulses.filter fun pulse => generation < c.pulseMutations pulse.id

/-- `mergeMutationsAfterLocked`. -/
def mergeMutationsAfterLocked (fresh : PublicLiveState) (generation : Nat) : PublicLiveState :=
  let nodes := c.nodesAfter generation
  let activity := c.activityAfter generation
  let pulses := c.pulsesAfter generation
  let mergedNodes := mergeConcurrentPublicNodes fresh.nodes nodes
  let mergedActivity := mergeConcurrentPublicActivity fresh.recentActivity activity
  let heard := activity.map PublicActivity.heardAt ++ pulses.map PublicRoutePulse.heardAt
  let seqs := nodes.map PublicNode.seq ++ activity.map PublicActivity.seq ++
    pulses.map PublicRoutePulse.seq
  { fresh with
    nodes := mergedNodes
    recentActivity := mergedActivity
    recentPulses := mergeConcurrentPublicPulses fresh.recentPulses pulses
    serverTime := heard.foldl max fresh.serverTime
    stats := { fresh.stats with
      serverTime := heard.foldl max fresh.stats.serverTime
      latestSeq := seqs.foldl max fresh.stats.latestSeq
      packets :=
        if generation < c.packetCountMutation then c.state.stats.packets
        else if activity ≠ [] then max fresh.stats.packets c.state.stats.packets
        else fresh.stats.packets
      activeNodes := mergedNodes.length
      activeRoutes := fresh.routes.length
      resolutionBuckets := publicResolutionCounters mergedActivity } }

/-- What `replace` cuts to the limits and installs: the fresh state, with the
cached mutations laid over it when the cache has changed since. -/
def replacement (state : PublicLiveState) (expectedGeneration : Option Nat) : PublicLiveState :=
  match expectedGeneration with
  | some g =>
    if c.ready = true ∧ c.mutationGeneration ≠ g then c.mergeMutationsAfterLocked state g
    else state
  | none => state

/-- `replace`. -/
def replace (now : Int) (state : PublicLiveState) (excluded : Counter)
    (expectedGeneration : Option Nat) : PublicStateCache :=
  let state := c.replacement state expectedGeneration
  let counters := mergeCounters excluded c.anomalies
  let installed :=
    { state with
      nodes := state.nodes.take publicCacheMaxNodes
      routes := state.routes.take publicCacheMaxRoutes
      recentPulses := state.recentPulses.take publicCacheMaxPulses
      recentActivity := state.recentActivity.take publicCacheMaxActivity
      updatedAt := now
      stats := { state.stats with excludedIATAs := counters, excludedRegions := counters } }
  { c with
    state := installed
    serialized := some installed
    serializedAt := some now
    ready := true
    updatedAt := now
    fullReconciledAt := now
    truncated :=
      { nodes := truncatedCount state.nodes.length publicCacheMaxNodes
        routes := truncatedCount state.routes.length publicCacheMaxRoutes
        recentPulses := truncatedCount state.recentPulses.length publicCacheMaxPulses
        recentActivity := truncatedCount state.recentActivity.length publicCacheMaxActivity }
    mutationGeneration := c.mutationGeneration + 1
    nodeMutations := fun _ => 0
    activityMutations := fun _ => 0
    pulseMutations := fun _ => 0
    packetCountMutation := 0 }

/-! ## Live updates -/

/-- `recordLiveUpdateLocked`: the serialization follows at most every five
seconds. -/
def recordLiveUpdateLocked (now : Int) : PublicStateCache :=
  let state := { c.state with updatedAt := now }
  if c.serializedAt.all fun at_ => publicSerializationMinInterval ≤ now - at_ then
    { c with updatedAt := now, state, serialized := some state, serializedAt := some now }
  else { c with updatedAt := now, state }

/-- `advanceLatestSeqLocked` on the statistics. -/
def advanceLatestSeq (stats : PublicStats) (seq : Int) : PublicStats :=
  { stats with latestSeq := max stats.latestSeq seq }

/-- The server time that an item heard later moves forward. -/
def advanceServerTime (state : PublicLiveState) (heardAt : Int) : PublicLiveState :=
  if state.serverTime < heardAt then
    { state with serverTime := heardAt, stats := { state.stats with serverTime := heardAt } }
  else state

/-- A journal without the evicted items and with a new entry. -/
def Journal.record (journal : Journal) (evicted : List String) (id : String) (generation : Nat) :
    Journal :=
  fun key => if key = id then generation else if key ∈ evicted then 0 else journal key

/-- `ApplyNode`. -/
def applyNode (now : Int) (node : PublicNode) : PublicStateCache :=
  if !c.ready then c
  else
    let next := node :: c.state.nodes.filter fun item => item.id ≠ node.id
    let nodes := next.take publicCacheMaxNodes
    let stats := advanceLatestSeq { c.state.stats with activeNodes := nodes.length } node.seq
    let generation := c.mutationGeneration + 1
    { c with
      state := { c.state with nodes, stats }
      mutationGeneration := generation
      nodeMutations := Journal.record c.nodeMutations
        ((next.drop publicCacheMaxNodes).map PublicNode.id) node.id generation }.recordLiveUpdateLocked
      now

/-- `ApplyActivity`. -/
def applyActivity (now : Int) (activity : PublicActivity) : PublicStateCache :=
  if !c.ready then c
  else
    let next := activity :: c.state.recentActivity
    let recentActivity := next.take publicCacheMaxActivity
    let packets :=
      if activity.kind = "packet" ∨ activity.kind = "route" then c.state.stats.packets + 1
      else c.state.stats.packets
    let stats := { c.state.stats with
      resolutionBuckets := publicResolutionCounters recentActivity, packets }
    let state := advanceServerTime { c.state with recentActivity, stats } activity.heardAt
    let generation := c.mutationGeneration + 1
    { c with
      state := { state with stats := advanceLatestSeq state.stats activity.seq }
      mutationGeneration := generation
      activityMutations := Journal.record c.activityMutations
        ((next.drop publicCacheMaxActivity).map PublicActivity.id) activity.id
        generation }.recordLiveUpdateLocked now

/-- `ApplyRoutePulse`. -/
def applyRoutePulse (now : Int) (pulse : PublicRoutePulse) : PublicStateCache :=
  if !c.ready then c
  else
    let next := pulse :: c.state.recentPulses
    let state := advanceServerTime
      { c.state with recentPulses := next.take publicCacheMaxPulses } pulse.heardAt
    let generation := c.mutationGeneration + 1
    { c with
      state := { state with stats := advanceLatestSeq state.stats pulse.seq }
      mutationGeneration := generation
      pulseMutations := Journal.record c.pulseMutations
        ((next.drop publicCacheMaxPulses).map PublicRoutePulse.id) pulse.id
        generation }.recordLiveUpdateLocked now

/-- The `Apply*` of an event's data. -/
def apply (now : Int) : PublicData → PublicStateCache
  | .node item => c.applyNode now item
  | .activity item => c.applyActivity now item
  | .pulse item => c.applyRoutePulse now item

/-- `SetPacketCount`. -/
def setPacketCount (count : Int) : PublicStateCache :=
  if count < 0 ∨ c.ready = false then c
  else
    { c with
      state := { c.state with stats := { c.state.stats with packets := count } }
      mutationGeneration := c.mutationGeneration + 1
      packetCountMutation := c.mutationGeneration + 1 }

/-- `RecordExcludedIATA`. -/
def recordExcludedIATA (iata : String) : PublicStateCache :=
  let iata := Go.upperTrim iata
  { c with anomalies := c.anomalies.bump (if iata = "" then "UNKNOWN" else iata) 1 }

/-! ## Reads -/

/-- `Snapshot`. -/
def snapshot : Option PublicLiveState := if c.ready then some c.state else none

/-- `Serialized`. -/
def serializedState : Option PublicLiveState := if c.ready then c.serialized else none

end PublicStateCache

end CartoLive.Live
