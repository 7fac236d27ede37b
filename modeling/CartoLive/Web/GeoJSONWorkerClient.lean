import CartoLive.Lib.Keyed
import CartoLive.Lib.TSys

/-!
# The client of the GeoJSON worker

`createBrowserGeoJSONClient` of `geojsonWorkerClient.ts`, with the client on the main
thread that it falls back to. The state is what the two closures hold, the messages that
have been posted, and the calls of `resolve` and `reject`, each for one of the promises
that `transform` has returned. Promises are numbered in the order of the calls. The
structured clone of a posted message is taken to succeed.
-/

namespace CartoLive.Web

open CartoLive.Lib CartoLive.Lib.Keyed

inductive TransformType
  | nodes
  | routes
  | heatmap
  | history
  | propagation
  | analysis
  deriving DecidableEq

/-- A `GeoJSONTransformRequest`. -/
structure TransformRequest (Payload : Type) where
  id : String
  type : TransformType
  payload : Payload
  deriving DecidableEq

/-- A `GeoJSONTransformResponse`. -/
structure TransformResponse (GeoJSON : Type) where
  id : String
  sourceId : String
  signature : String
  geojson : GeoJSON
  deriving DecidableEq

/-- The data of a message of the worker: a response, or an object that may have an ID and
an error. -/
inductive WorkerData (GeoJSON : Type)
  | response (body : TransformResponse GeoJSON)
  | failure (id : Option String) (error : Option String)
  deriving DecidableEq

namespace WorkerData

variable {GeoJSON : Type}

/-- `typeof data?.id === 'string' ? data.id : ''`. -/
def id : WorkerData GeoJSON → String
  | .response body => body.id
  | .failure id _ => id.getD ""

/-- `'error' in data && data.error`, where it is not an empty text. -/
def error : WorkerData GeoJSON → Option String
  | .response _ => none
  | .failure _ error => error.filter fun text => text ≠ ""

end WorkerData

/-- How a promise settles. -/
inductive Settlement (GeoJSON : Type)
  | resolved (data : WorkerData GeoJSON)
  | rejected (message : String)
  deriving DecidableEq

/-- What `resolve` and `reject` of a pending request settle, and its type. -/
structure PendingTransform where
  type : TransformType
  promise : Nat
  deriving DecidableEq

structure GeoJSONClient (Payload GeoJSON : Type) where
  /-- Whether there is no worker, and the handler runs on the main thread. -/
  mainThread : Bool
  nextID : Nat
  disposed : Bool
  latestIDByType : TransformType → Option String
  pending : List (String × PendingTransform)
  posted : List (TransformRequest Payload)
  promises : Nat
  settled : List (Nat × Settlement GeoJSON)

namespace GeoJSONClient

variable {Payload GeoJSON : Type}

/-- A client, of a worker or on the main thread. -/
def new (mainThread : Bool) : GeoJSONClient Payload GeoJSON :=
  { mainThread, nextID := 0, disposed := false, latestIDByType := fun _ => none, pending := []
    posted := [], promises := 0, settled := [] }

/-- The ID of a request. -/
def requestID (number : Nat) : String := "geojson-" ++ Nat.repr number

def settle (c : GeoJSONClient Payload GeoJSON) (promise : Nat) (settlement : Settlement GeoJSON) :
    GeoJSONClient Payload GeoJSON :=
  { c with settled := c.settled ++ [(promise, settlement)] }

/-- `rejectAll`. -/
def rejectAll (c : GeoJSONClient Payload GeoJSON) (error : String) :
    GeoJSONClient Payload GeoJSON :=
  { c with
    settled := c.settled ++ c.pending.map fun entry => (entry.2.promise, .rejected error)
    pending := [] }

/-- `transform` of the client of a worker; `worker` is `null` exactly after `dispose`. -/
def transform (c : GeoJSONClient Payload GeoJSON) (type : TransformType) (payload : Payload) :
    GeoJSONClient Payload GeoJSON :=
  let promise := c.promises + 1
  let c := { c with promises := promise }
  if c.disposed then c.settle promise (.rejected "geojson transform client disposed")
  else
    let id := requestID (c.nextID + 1)
    { c with
      nextID := c.nextID + 1
      latestIDByType := Function.update c.latestIDByType type (some id)
      pending := setEntry c.pending id { type, promise }
      posted := c.posted ++ [{ id := id, type := type, payload := payload }] }

/-- `transform` of the client on the main thread. -/
def transformOnMainThread
    (handler : TransformRequest Payload → Except String (TransformResponse GeoJSON))
    (c : GeoJSONClient Payload GeoJSON) (type : TransformType) (payload : Payload) :
    GeoJSONClient Payload GeoJSON :=
  let promise := c.promises + 1
  let c := { c with promises := promise }
  if c.disposed then c.settle promise (.rejected "geojson transform client disposed")
  else
    let id := requestID (c.nextID + 1)
    let c :=
      { c with
        nextID := c.nextID + 1
        latestIDByType := Function.update c.latestIDByType type (some id) }
    match handler { id, type, payload } with
    | .error error => c.settle promise (.rejected error)
    | .ok response =>
      if c.latestIDByType type ≠ some response.id then
        c.settle promise (.rejected "stale geojson transform response")
      else c.settle promise (.resolved (.response response))

/-- The listener of messages. -/
def receive (c : GeoJSONClient Payload GeoJSON) (data : WorkerData GeoJSON) :
    GeoJSONClient Payload GeoJSON :=
  match get Prod.fst data.id c.pending with
  | none => c
  | some (id, request) =>
    let c := { c with pending := c.pending.filter fun entry => entry.1 ≠ id }
    match data.error with
    | some error => c.settle request.promise (.rejected error)
    | none =>
      if c.latestIDByType request.type ≠ some id then
        c.settle request.promise (.rejected "stale geojson transform response")
      else c.settle request.promise (.resolved data)

/-- `dispose`. -/
def dispose (c : GeoJSONClient Payload GeoJSON) : GeoJSONClient Payload GeoJSON :=
  { c with disposed := true }.rejectAll "geojson transform client disposed"

end GeoJSONClient

/-! ## What happens to a client -/

inductive ClientEvent (Payload GeoJSON : Type)
  | transform (type : TransformType) (payload : Payload)
  | message (data : WorkerData GeoJSON)
  | error (message : String)
  | messageerror
  | dispose

variable {Payload GeoJSON : Type}
  (handler : TransformRequest Payload → Except String (TransformResponse GeoJSON))

/-- Events of a worker come only where there is one. -/
def GeoJSONClient.step (c : GeoJSONClient Payload GeoJSON) :
    ClientEvent Payload GeoJSON → Option (GeoJSONClient Payload GeoJSON)
  | .transform type payload =>
    some (if c.mainThread then c.transformOnMainThread handler type payload
      else c.transform type payload)
  | .message data => if c.mainThread then none else some (c.receive data)
  | .error message =>
    if c.mainThread then none
    else some (c.rejectAll (if message = "" then "geojson worker error" else message))
  | .messageerror => if c.mainThread then none else some (c.rejectAll "geojson worker message error")
  | .dispose => some c.dispose

/-- The system of one client. -/
def clientSystem : TSys (GeoJSONClient Payload GeoJSON) (ClientEvent Payload GeoJSON) where
  init c := ∃ mainThread, c = .new mainThread
  step := GeoJSONClient.step handler

end CartoLive.Web
