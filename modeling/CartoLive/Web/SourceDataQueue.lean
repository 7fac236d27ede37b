import CartoLive.Lib.Keyed
import CartoLive.Lib.TSys

/-!
# The queue of map sources

`setSourceData` and `disposeSourceDataQueue` of the map: new data of a source waits for
the next animation frame, and a call is skipped whose signature is the one remembered
for its source. The state is that of one map; of the browser it has the frames that are
requested, and those that have been cancelled, whose callbacks may still be called.
`JSON.stringify` is a parameter, and the diagnostics are left out.
-/

namespace CartoLive.Web

open CartoLive.Lib CartoLive.Lib.Keyed

structure FeatureCollection (Feature : Type) where
  features : List Feature
  deriving DecidableEq

/-- A `SourceUpdateQueue`; the pending data are in the order of their insertion. -/
structure SourceUpdateQueue (Feature : Type) where
  frame : Nat
  pending : List (String × FeatureCollection Feature)
  signatures : String → Option String
  nodup : (pending.map Prod.fst).Nodup

/-- A map, its queue if it has one, and its animation frames. -/
structure SourceMap (Feature : Type) where
  /-- The entry of `sourceUpdateQueues`. -/
  queue : Option (SourceUpdateQueue Feature)
  /-- Whether the map is in `disposedMaps`. -/
  disposed : Bool
  sources : String → Option (FeatureCollection Feature)
  /-- The calls of `setData`. -/
  writes : List (String × FeatureCollection Feature)
  armed : List Nat
  cancelled : List Nat
  requests : Nat

/-- What becomes of a call of `setSourceData`. -/
inductive SetResult
  | ignored
  | skipped
  | queued
  deriving DecidableEq

variable {Feature : Type}

def SourceUpdateQueue.empty : SourceUpdateQueue Feature :=
  { frame := 0, pending := [], signatures := fun _ => none, nodup := List.nodup_nil }

/-! ## The functions -/

section Signature

variable (stringify : FeatureCollection Feature → List UInt16)

/-- `featureCollectionSignature`; its numbers wrap at 32 bits. -/
def featureCollectionSignature (data : FeatureCollection Feature) : String :=
  let hash := (stringify data).foldl
    (fun (hash : UInt32) code => ((hash <<< 5) + hash) ^^^ code.toUInt32) 5381
  toString data.features.length ++ ":" ++ toString hash.toNat

/-- `nextSignature` of a call. -/
def nextSignature (data : FeatureCollection Feature) (signature : Option String) : String :=
  signature.getD (featureCollectionSignature stringify data)

end Signature

namespace SourceMap

/-- `applySourceData`, and whether the source is there. -/
def applySourceData (m : SourceMap Feature) (sourceID : String)
    (data : FeatureCollection Feature) : SourceMap Feature × Bool :=
  match m.sources sourceID with
  | none => (m, false)
  | some _ =>
    ({ m with
        sources := Function.update m.sources sourceID (some data)
        writes := m.writes ++ [(sourceID, data)] },
      true)

/-- One round of the loop in the callback of a frame. -/
def flushEntry (loop : SourceMap Feature × (String → Option String))
    (entry : String × FeatureCollection Feature) :
    SourceMap Feature × (String → Option String) :=
  let (m, applied) := loop.1.applySourceData entry.1 entry.2
  (m, if !applied then Function.update loop.2 entry.1 none else loop.2)

/-- The callback of a frame. -/
def flush (m : SourceMap Feature) : SourceMap Feature :=
  if m.disposed then m
  else
    match m.queue with
    | none => m
    | some queue =>
      let (m, signatures) := queue.pending.foldl flushEntry (m, queue.signatures)
      { m with queue := some { frame := 0, pending := [], signatures, nodup := List.nodup_nil } }

variable (stringify : FeatureCollection Feature → List UInt16)

/-- `setSourceData`, and what becomes of the call. -/
def setSourceData (m : SourceMap Feature) (sourceID : String) (data : FeatureCollection Feature)
    (signature : Option String) : SourceMap Feature × SetResult :=
  if m.disposed then (m, .ignored)
  else
    let queue := m.queue.getD .empty
    let next := nextSignature stringify data signature
    if queue.signatures sourceID = some next then ({ m with queue := some queue }, .skipped)
    else
      let queue :=
        { queue with
          signatures := Function.update queue.signatures sourceID (some next)
          pending := setEntry queue.pending sourceID data
          nodup := nodup_setEntry queue.nodup sourceID data }
      if queue.frame ≠ 0 then ({ m with queue := some queue }, .queued)
      else
        let handle := m.requests + 1
        ({ m with
            queue := some { queue with frame := handle }
            armed := m.armed ++ [handle]
            requests := handle },
          .queued)

/-- `disposeSourceDataQueue`. -/
def disposeSourceDataQueue (m : SourceMap Feature) : SourceMap Feature :=
  let m := { m with disposed := true }
  match m.queue with
  | none => m
  | some queue =>
    let m :=
      if queue.frame ≠ 0 then
        { m with
          armed := m.armed.filter fun handle => handle ≠ queue.frame
          cancelled := m.cancelled ++ [queue.frame] }
      else m
    { m with queue := none }

/-- The browser takes a frame out of those whose callback is to be called. -/
def takeFrame (m : SourceMap Feature) (handle : Nat) : SourceMap Feature :=
  { m with
    armed := m.armed.filter fun other => other ≠ handle
    cancelled := m.cancelled.filter fun other => other ≠ handle }

/-- A map with some sources, and without a queue. -/
def new (sources : String → Option (FeatureCollection Feature)) : SourceMap Feature :=
  { queue := none, disposed := false, sources, writes := [], armed := [], cancelled := []
    requests := 0 }

end SourceMap

/-! ## What happens to a map -/

inductive SourceEvent (Feature : Type)
  | setSourceData (sourceID : String) (data : FeatureCollection Feature)
      (signature : Option String)
  | frame (handle : Nat)
  | addSource (sourceID : String) (data : FeatureCollection Feature)
  | dispose

variable (stringify : FeatureCollection Feature → List UInt16)

/-- The callback of a frame is called once, and a source is added once. -/
def SourceMap.step (m : SourceMap Feature) : SourceEvent Feature → Option (SourceMap Feature)
  | .setSourceData sourceID data signature =>
    some (m.setSourceData stringify sourceID data signature).1
  | .frame handle =>
    if handle ∈ m.armed ++ m.cancelled then some (m.takeFrame handle).flush else none
  | .addSource sourceID data =>
    if m.sources sourceID = none then
      some { m with sources := Function.update m.sources sourceID (some data) }
    else none
  | .dispose => some m.disposeSourceDataQueue

/-- The system of one map. -/
def sourceSystem : TSys (SourceMap Feature) (SourceEvent Feature) where
  init m := ∃ sources, m = .new sources
  step := SourceMap.step stringify

end CartoLive.Web
