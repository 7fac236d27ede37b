import CartoLive.Lib.DeferredTrim
import CartoLive.Lib.Keyed
import CartoLive.Lib.TSys

/-!
# The service worker

`public/sw.js`: the requests of the pages, each with the steps between its awaits, over the named
caches of the origin. What is awaited settles in any order; every awaited operation can reject, and
the browser can end the worker at any time.

Requests are matched by their addresses without fragments; the `Vary` headers of responses are
left out. The history of what the network has answered is kept beside the worker, and so is the
number of entries of the runtime cache that no deletion was planned for, or whose deletion was
lost.
-/

namespace CartoLive.Web.ServiceWorker

open CartoLive.Lib

/-! ## Requests and caches -/

/-- An address without its fragment. -/
structure Url where
  origin : String
  pathname : String
  search : String
  deriving DecidableEq

structure Request where
  method : String
  url : Url
  mode : String

structure Response where
  status : ℕ
  body : String
  deriving DecidableEq

def Response.ok (r : Response) : Bool := 200 ≤ r.status ∧ r.status ≤ 299

/-- `new Response('Offline', { status: 503 })`. -/
def offline : Response := { status := 503, body := "Offline" }

structure Entry where
  url : Url
  response : Response
  deriving DecidableEq

/-- Where the worker runs, and the release it belongs to. -/
structure Release where
  origin : String
  releaseId : String

/-- `CacheStorage`: the caches with their names, in the order of their creation. -/
abbrev Caches := List (String × List Entry)

def cachePrefix : String := "mc-cartolive"

def snapshotURL : String := "/api/v1/public/state"

def runtimeCacheLimit : ℕ := 72

/-- `String.prototype.startsWith`. -/
def startsWith (text start : String) : Bool := start.toList.isPrefixOf text.toList

namespace Release

def shellCache (release : Release) : String := cachePrefix ++ "-shell-" ++ release.releaseId

def runtimeCache (release : Release) : String := cachePrefix ++ "-runtime-" ++ release.releaseId

def snapshotCache (release : Release) : String := cachePrefix ++ "-snapshot-" ++ release.releaseId

/-- The caches that `activate` leaves alone. -/
def caches (release : Release) : List String :=
  [release.shellCache, release.runtimeCache, release.snapshotCache]

def localUrl (release : Release) (pathname : String) : Url :=
  { origin := release.origin, pathname, search := "" }

end Release

def shouldBypassCache (release : Release) (request : Request) : Bool :=
  if request.method ≠ "GET" then true
  else if request.url.origin ≠ release.origin then true
  else if request.url.search ≠ "" ∧ request.mode ≠ "navigate" then true
  else if startsWith request.url.pathname "/api/" ∧ request.url.pathname ≠ snapshotURL then true
  else if request.url.pathname = "/healthz" ∨ request.url.pathname = "/readyz" ∨
      request.url.pathname = "/metrics" then true
  else startsWith request.url.pathname "/ws"

/-- `caches.match`. -/
def matchCaches (caches : Caches) (url : Url) : Option Response :=
  caches.findSome? fun cache => (Keyed.get Entry.url url cache.2).map Entry.response

/-- The entries of a named cache. -/
def cacheEntries (caches : Caches) (name : String) : List Entry :=
  ((Keyed.get Prod.fst name caches).map Prod.snd).getD []

/-- `caches.open` and `cache.put`: the entry of the same address goes, and the new one comes
last. -/
def putIn (caches : Caches) (name : String) (url : Url) (response : Response) : Caches :=
  Keyed.setEntry caches name (DeferredTrim.put Entry.url ⟨url, response⟩ (cacheEntries caches name))

/-- `cache.delete`. -/
def deleteIn (caches : Caches) (name : String) (url : Url) : Caches :=
  Keyed.setEntry caches name (DeferredTrim.delete Entry.url url (cacheEntries caches name))

/-! ## Requests under way -/

/-- What the listener of `fetch` does with a request. -/
inductive Strategy
  | bypass
  | cacheFirst
  | networkFirst (cacheName : String) (fallbackURL : Option Url)
  deriving DecidableEq

/-- The branches of the listener of `fetch`. -/
def strategyFor (release : Release) (request : Request) : Strategy :=
  if shouldBypassCache release request then .bypass
  else if request.url.origin = release.origin ∧ request.url.pathname = snapshotURL then
    .networkFirst release.snapshotCache none
  else if request.mode = "navigate" then
    .networkFirst release.shellCache (some (release.localUrl "/index.html"))
  else .cacheFirst

/-- The cache that `putBounded` puts into. -/
def Strategy.cacheName (release : Release) : Strategy → Option String
  | .bypass => none
  | .cacheFirst => some release.runtimeCache
  | .networkFirst cacheName _ => some cacheName

/-- What a request awaits. -/
inductive Phase
  /-- `caches.match` of `cacheFirst`. -/
  | matching
  /-- `fetch`. -/
  | fetching
  /-- `caches.open` and `cache.put`. -/
  | putting (response : Response)
  /-- `cache.keys`. -/
  | listing (response : Response)
  /-- `Promise.all` of the deletions. -/
  | deleting (response : Response)
  /-- `caches.match` in the `catch` of `networkFirst`. -/
  | recalling
  | recallingFallback (cached : Option Response)
  | answered (response : Response)
  /-- The page sees a network error. -/
  | rejected
  deriving DecidableEq

structure FetchTask where
  request : Request
  strategy : Strategy
  phase : Phase

namespace FetchTask

/-- The `catch` of a task. -/
def caught (task : FetchTask) : Phase :=
  match task.strategy with
  | .bypass => .rejected
  | .cacheFirst => .answered offline
  | .networkFirst _ _ => .recalling

/-- A task that has put an entry and not listed the keys. -/
def isListing (task : FetchTask) : Bool :=
  match task.phase with
  | .listing _ => true
  | _ => false

/-- A task that the end of the worker takes down. -/
def ended (task : FetchTask) : FetchTask :=
  match task.phase with
  | .answered _ => task
  | _ => { task with phase := .rejected }

end FetchTask

structure Worker where
  caches : Caches
  tasks : List FetchTask
  /-- The deletions that are under way, with the tasks that began them. -/
  deletes : List (ℕ × Url)
  /-- The old caches that are being deleted. -/
  doomed : List String
  /-- What the network has answered to an address. -/
  network : List Entry
  /-- The entries that were put and never listed, or whose deletion was lost. -/
  lost : ℕ

inductive Act
  /-- `cache.addAll` of the shell, with its two responses. -/
  | install (root index : Response)
  /-- `caches.keys` of `activate`. -/
  | activate
  /-- A `caches.delete` of `activate`. -/
  | deleteCache (name : String)
  | fetch (request : Request)
  /-- A `caches.match` resolves. -/
  | matched (id : ℕ)
  /-- The network answers. -/
  | respond (id : ℕ) (response : Response)
  | put (id : ℕ)
  | list (id : ℕ)
  | delete (id : ℕ) (url : Url)
  /-- `Promise.all` of the deletions resolves. -/
  | finish (id : ℕ)
  /-- What a task awaits rejects. -/
  | fail (id : ℕ)
  /-- A deletion rejects. -/
  | failDelete (id : ℕ) (url : Url)
  /-- The browser ends the worker; the deletions that it began can still be made. -/
  | terminate

namespace Worker

variable (release : Release)

def runtime (w : Worker) : List Entry := cacheEntries w.caches release.runtimeCache

def setPhase (w : Worker) (id : ℕ) (task : FetchTask) (phase : Phase) : Worker :=
  { w with tasks := w.tasks.set id { task with phase } }

/-- What a task does when the operation that it awaits rejects. -/
def failed (w : Worker) (id : ℕ) (task : FetchTask) : Option Worker :=
  match task.phase with
  | .fetching | .putting _ => some (w.setPhase id task (task.caught))
  | .listing _ => some { w.setPhase id task (task.caught) with lost := w.lost + 1 }
  | .matching | .recalling | .recallingFallback _ => some (w.setPhase id task .rejected)
  | .deleting _ | .answered _ | .rejected => none

/-- `caches.match` resolves. -/
def resolveMatch (w : Worker) (id : ℕ) (task : FetchTask) : Option Worker :=
  match task.phase with
  | .matching =>
    some (w.setPhase id task
      (match matchCaches w.caches task.request.url with
      | some cached => .answered cached
      | none => .fetching))
  | .recalling =>
    some (w.setPhase id task (.recallingFallback (matchCaches w.caches task.request.url)))
  | .recallingFallback cached =>
    let fallback :=
      match task.strategy with
      | .networkFirst _ (some url) => matchCaches w.caches url
      | _ => none
    some (w.setPhase id task (.answered ((cached.or fallback).getD offline)))
  | _ => none

/-- `fetch` resolves. -/
def resolveFetch (w : Worker) (id : ℕ) (task : FetchTask) (response : Response) : Option Worker :=
  match task.phase with
  | .fetching =>
    let w : Worker := { w with network := w.network ++ [⟨task.request.url, response⟩] }
    some (w.setPhase id task
      (if response.ok ∧ task.strategy ≠ .bypass then .putting response else .answered response))
  | _ => none

/-- `cache.put` resolves. -/
def resolvePut (w : Worker) (id : ℕ) (task : FetchTask) : Option Worker :=
  match task.phase with
  | .putting response =>
    (task.strategy.cacheName release).map fun cacheName =>
      let w := { w with caches := putIn w.caches cacheName task.request.url response }
      w.setPhase id task
        (if cacheName ≠ release.runtimeCache then .answered response else .listing response)
  | _ => none

/-- `cache.keys` resolves, and the deletions begin. -/
def resolveKeys (w : Worker) (id : ℕ) (task : FetchTask) : Option Worker :=
  match task.phase with
  | .listing response =>
    let keys := (w.runtime release).map Entry.url
    let overflow := keys.length - runtimeCacheLimit
    if overflow > 0 then
      let w := { w with deletes := w.deletes ++ (keys.take overflow).map fun key => (id, key) }
      some (w.setPhase id task (.deleting response))
    else some (w.setPhase id task (.answered response))
  | _ => none

def step (w : Worker) : Act → Option Worker
  | .install root index =>
    if root.ok ∧ index.ok then
      let caches := putIn w.caches release.shellCache (release.localUrl "/") root
      some { w with
        caches := putIn caches release.shellCache (release.localUrl "/index.html") index
        network := w.network ++
          [⟨release.localUrl "/", root⟩, ⟨release.localUrl "/index.html", index⟩] }
    else none
  | .activate =>
    some { w with
      doomed := (w.caches.map Prod.fst).filter fun name =>
        startsWith name cachePrefix ∧ name ∉ release.caches }
  | .deleteCache name =>
    if name ∈ w.doomed then
      some { w with
        caches := w.caches.filter fun cache => cache.1 ≠ name
        doomed := w.doomed.erase name }
    else none
  | .fetch request =>
    let strategy := strategyFor release request
    let phase := if strategy = .cacheFirst then .matching else .fetching
    some { w with tasks := w.tasks ++ [{ request, strategy, phase }] }
  | .matched id => (w.tasks[id]?).bind (w.resolveMatch id)
  | .respond id response => (w.tasks[id]?).bind fun task => w.resolveFetch id task response
  | .put id => (w.tasks[id]?).bind (w.resolvePut release id)
  | .list id => (w.tasks[id]?).bind (w.resolveKeys release id)
  | .delete id url =>
    if (id, url) ∈ w.deletes then
      some { w with
        caches := deleteIn w.caches release.runtimeCache url
        deletes := w.deletes.erase (id, url) }
    else none
  | .finish id =>
    (w.tasks[id]?).bind fun task =>
      match task.phase with
      | .deleting response =>
        if ∀ delete ∈ w.deletes, delete.1 ≠ id then
          some (w.setPhase id task (.answered response))
        else none
      | _ => none
  | .fail id => (w.tasks[id]?).bind (w.failed id)
  | .failDelete id url =>
    if (id, url) ∈ w.deletes then
      (w.tasks[id]?).map fun task =>
        let w := { w with deletes := w.deletes.erase (id, url), lost := w.lost + 1 }
        match task.phase with
        | .deleting _ => w.setPhase id task (task.caught)
        | _ => w
    else none
  | .terminate =>
    some { w with
      tasks := w.tasks.map FetchTask.ended
      doomed := []
      lost := w.lost + w.tasks.countP FetchTask.isListing }

end Worker

/-- The worker of a release, beside the caches of earlier ones. -/
def serviceWorker (release : Release) : TSys Worker Act where
  init w := (∀ cache ∈ w.caches, cache.1 ∉ release.caches) ∧ w.tasks = [] ∧ w.deletes = [] ∧
    w.doomed = [] ∧ w.network = w.caches.flatMap Prod.snd ∧ w.lost = 0
  step := Worker.step release

end CartoLive.Web.ServiceWorker
