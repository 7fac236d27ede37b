import CartoLive.Lib.Holding
import CartoLive.Lib.Recency
import CartoLive.Lib.TSys
import CartoLive.Live.Events

/-!
# The resolver and the store

Goroutines that share a resolver (`resolver.go`) and the store behind it
(`db.go`): calls of `Resolve`, calls of `InvalidateCandidates`, and candidate
mutations, any number of each, started at any time. Every step takes or gives up
a lock, loads or bumps the generation, queries the store, or does what a lock
allows its holder to do; the steps of all goroutines interleave in any order.

The reader lock of `candidateMu` is shared by the calls of `Resolve`, its writer
lock is held by a mutation, and `cacheMu` guards the cache.
-/

/-!
## Resolving a path

What the resolver of `resolver.go` makes of a packet (`resolveOnce`) from a
lookup of candidates, and the lookup that the store answers
(`CandidatesByPrefix` of `nodes.go`). The loop over the prefixes is cut into one
turn (`resolveHop`), so that a resolution that shares the resolver with others
is made of the same turns.
-/

namespace CartoLive.Resolve

open CartoLive.Go CartoLive.Live

/-- A `Candidate`; the resolver hands out copies, so it is a value. -/
structure Candidate where
  nodeID : String
  publicKey : String
  name : String
  role : String
  iata : String
  latitude : Option F64
  longitude : Option F64
  deriving DecidableEq

structure ResolvedHop where
  hopPrefix : String
  confidence : String
  candidate : Candidate
  deriving DecidableEq

structure Result where
  status : String
  reason : String
  hops : List ResolvedHop
  deriving DecidableEq

def statusHigh : String := "high"
def statusNoPath : String := "no_path"
def statusUnresolved : String := "unresolved"
def statusAmbiguous : String := "ambiguous"
def statusDuplicatePrefix : String := "duplicate_prefix"
def statusRoleInvalid : String := "role_invalid"
def statusInvalidForMap : String := "invalid_for_map"

/-- What the resolver reads of a `ParsedPacket`. -/
structure ParsedPacket where
  hashSize : Int
  hopCount : Int
  pathChunks : List String
  invalidForMap : Bool
  invalidReason : String
  deriving DecidableEq

/-! ## Candidates -/

/-- A row of `node_short_ids`. -/
structure ShortIDRow where
  publicKey : String
  iata : String
  hashSize : Int
  prefixHex : String
  deriving DecidableEq

/-- The tables that candidates are read from. -/
structure CandidateTables where
  nodes : List Node
  shortIDs : List ShortIDRow
  deriving DecidableEq

def candidate (si : ShortIDRow) (n : Node) : Candidate :=
  { nodeID := n.nodeID, publicKey := n.publicKey, name := n.name, role := n.role, iata := si.iata
    latitude := n.latitude, longitude := n.longitude }

/-- `candidateCacheKey`. -/
structure CandidateCacheKey where
  iata : String
  hashSize : Int
  keyPrefix : String
  deriving DecidableEq

/-- The key that `candidatesByPrefix` looks up. -/
def candidateCacheKey (iata : String) (hashSize : Int) (chunk : String) : CandidateCacheKey :=
  { iata := toUpper (trimSpace iata), hashSize, keyPrefix := toUpper (trimSpace chunk) }

/-- `Store.CandidatesByPrefix`: the latest seen first. -/
def CandidateTables.candidatesByPrefix (t : CandidateTables) (key : CandidateCacheKey) :
    List Candidate :=
  let ids := t.shortIDs.filter fun si =>
    si.iata = toUpper key.iata ∧ si.hashSize = key.hashSize ∧ si.prefixHex = toUpper key.keyPrefix
  let joined := ids.flatMap fun si =>
    (t.nodes.filter fun n => n.publicKey = si.publicKey).map fun n => (si, n)
  (joined.insertionSort fun a b => b.2.lastSeen ≤ a.2.lastSeen).map fun row =>
    candidate row.1 row.2

/-! ## A resolution -/

/-- The roles of `New`. -/
def forwarderRoles (roles : List String) : List String :=
  if roles = [] then ["repeater", "room_server"] else roles

/-- The first prefix that came before. -/
def firstRepeated (seen : List String) : List String → Option String
  | [] => none
  | chunk :: rest => if chunk ∈ seen then some chunk else firstRepeated (chunk :: seen) rest

/-- What `resolveOnce` answers before it looks up a prefix. -/
def resolveEarly (parsed : ParsedPacket) : Option Result :=
  if parsed.invalidForMap then
    some { status := statusInvalidForMap, reason := parsed.invalidReason, hops := [] }
  else if parsed.hopCount = 0 then
    some { status := statusNoPath, reason := "zero_hop_packet", hops := [] }
  else
    (firstRepeated [] parsed.pathChunks).map fun chunk =>
      { status := statusDuplicatePrefix, reason := "duplicate prefix " ++ chunk, hops := [] }

/-- One turn of the loop: the answer, or the hops so far. -/
def resolveHop (roles : List String) (iata : String) (hashSize : Int) (hops : List ResolvedHop)
    (chunk : String) (candidates : List Candidate) : Except Result (List ResolvedHop) :=
  if candidates = [] then
    .error
      { status := statusUnresolved
        reason := "no candidates for " ++ toString hashSize ++ "-byte prefix " ++ chunk ++ " in " ++
          iata
        hops := [] }
  else
    match candidates.filter fun c => c.role ∈ roles with
    | [] =>
      .error
        { status := statusRoleInvalid
          reason := "prefix " ++ chunk ++ " has no forwarder-capable candidates"
          hops := [] }
    | [forwarder] =>
      .ok (hops ++ [{ hopPrefix := chunk, confidence := statusHigh, candidate := forwarder }])
    | forwarders =>
      .error
        { status := statusAmbiguous
          reason := "prefix " ++ chunk ++ " maps to " ++ toString forwarders.length ++
            " forwarder candidates"
          hops := [] }

/-- The loop, with the hops so far. -/
def resolveChunks (lookup : CandidateCacheKey → List Candidate) (roles : List String)
    (iata : String) (hashSize : Int) (hops : List ResolvedHop) : List String → Result
  | [] => { status := statusHigh, reason := "", hops }
  | chunk :: rest =>
    match resolveHop roles iata hashSize hops chunk
        (lookup (candidateCacheKey iata hashSize chunk)) with
    | .error result => result
    | .ok hops => resolveChunks lookup roles iata hashSize hops rest

/-- `resolveOnce`, with a lookup that cannot fail. -/
def resolveOnce (lookup : CandidateCacheKey → List Candidate) (roles : List String) (iata : String)
    (parsed : ParsedPacket) : Result :=
  match resolveEarly parsed with
  | some result => result
  | none => resolveChunks lookup roles iata parsed.hashSize [] parsed.pathChunks

end CartoLive.Resolve

namespace CartoLive.Resolve

open CartoLive.Lib

/-- The fields of the resolver that `cacheMu` guards. -/
structure Cache where
  candidates : Lru CandidateCacheKey (List Candidate)
  generation : Nat
  epoch : Nat
  deriving DecidableEq

/-- `clearCandidateCacheLocked`. -/
def Cache.clear (c : Cache) (generation : Nat) : Cache :=
  { candidates := .empty, generation, epoch := c.epoch + 1 }

/-- Clears a cache of another generation. -/
def Cache.sync (c : Cache) (generation : Nat) : Cache :=
  if generation ≠ c.generation then c.clear generation else c

/-- A call of `Resolve`. -/
structure ResolveCall where
  iata : String
  parsed : ParsedPacket
  deriving DecidableEq

/-- Where the loop of `resolveOnce` stands. -/
structure Progress where
  /-- The generation that the call began at. -/
  generation : Nat
  chunk : String
  rest : List String
  hops : List ResolvedHop
  deriving DecidableEq

/-- Where `candidatesByPrefix` stands. -/
inductive LookupPhase
  /-- `cacheMu` is next. -/
  | lock
  /-- It is locked, and the load of the generation is next. -/
  | load
  /-- The look-up in the cache is next. -/
  | find (generation : Nat)
  /-- The set was found; the generation is loaded again. -/
  | hit (generation : Nat) (candidates : List Candidate)
  /-- The query of the store is next. -/
  | query (generation epoch : Nat)
  /-- It was answered; the generation is loaded again. -/
  | queried (generation epoch : Nat) (candidates : List Candidate)
  /-- `cacheMu` is next. -/
  | relock (generation epoch : Nat) (candidates : List Candidate)
  /-- The load of the latest generation is next. -/
  | reload (generation epoch : Nat) (candidates : List Candidate)
  /-- The set is stored unless a generation or the epoch has moved. -/
  | publish (generation epoch : Nat) (candidates : List Candidate) (latest : Nat)
  deriving DecidableEq

/-- Where `Resolve` stands; `none` stands for an error. -/
inductive ResolvePhase
  /-- At the top of the loop. -/
  | top
  /-- The reader lock is next. -/
  | rlock
  /-- It is locked, and the load of the generation is next. -/
  | load
  /-- A prefix is looked up. -/
  | lookup (progress : Progress) (phase : LookupPhase)
  /-- `resolveOnce` has returned; the generation is loaded again. -/
  | check (generation : Nat) (result : Option Result)
  /-- The reader lock is released. -/
  | release (result : Option Result) (stable : Bool)
  | returned (result : Option Result)
  deriving DecidableEq

/-- Where `InvalidateCandidates` stands. -/
inductive InvalidatePhase
  | lock
  | load
  | clear (generation : Nat)
  | returned
  deriving DecidableEq

/-- Where a candidate mutation stands. -/
inductive MutationPhase
  | lock
  /-- The first bump is next. -/
  | bump
  /-- It writes, any number of times. -/
  | writing
  /-- The writer lock is released. -/
  | unlock
  | returned
  deriving DecidableEq

inductive Proc
  | resolving (call : ResolveCall) (phase : ResolvePhase)
  | invalidating (phase : InvalidatePhase)
  | mutating (phase : MutationPhase)
  deriving DecidableEq

/-- The state of all. -/
structure World where
  tables : CandidateTables
  /-- `candidateGeneration`. -/
  generation : Nat
  cache : Cache
  procs : List Proc
  deriving DecidableEq

/-! ## The locks -/

/-- How a goroutine holds `candidateMu`. -/
def Proc.candidateMu : Proc → Hold
  | .resolving _ .load | .resolving _ (.lookup _ _) | .resolving _ (.check _ _)
  | .resolving _ (.release _ _) => .shared
  | .mutating .bump | .mutating .writing | .mutating .unlock => .alone
  | _ => .free

/-- How a goroutine holds `cacheMu`. -/
def Proc.cacheMu : Proc → Hold
  | .resolving _ (.lookup _ .load) | .resolving _ (.lookup _ (.find _))
  | .resolving _ (.lookup _ (.reload _ _ _)) | .resolving _ (.lookup _ (.publish _ _ _ _))
  | .invalidating .load | .invalidating (.clear _) => .alone
  | _ => .free

/-! ## The steps -/

inductive Act
  | resolve (call : ResolveCall)
  | invalidate
  | mutate
  /-- Goroutine `i` takes its next step; a mutation ends its writes. -/
  | advance (i : Nat)
  /-- The context of goroutine `i` has ended, or its query fails. -/
  | fail (i : Nat)
  /-- A write of mutation `i`. -/
  | write (i : Nat) (tables : CandidateTables)
  deriving DecidableEq

def World.set (w : World) (i : Nat) (p : Proc) : World := { w with procs := w.procs.set i p }

section Steps

variable (roles : List String) (limit : Int)

/-- `resolveOnce` goes on with the prefixes that are left. -/
def proceed (generation : Nat) (hops : List ResolvedHop) : List String → ResolvePhase
  | [] => .check generation (some { status := statusHigh, reason := "", hops })
  | chunk :: rest => .lookup { generation, chunk, rest, hops } .lock

/-- `resolveOnce` begins. -/
def begin (call : ResolveCall) (generation : Nat) : ResolvePhase :=
  match resolveEarly call.parsed with
  | some result => .check generation (some result)
  | none => proceed generation [] call.parsed.pathChunks

/-- `candidatesByPrefix` returns to `resolveOnce`. -/
def answer (call : ResolveCall) (p : Progress) (candidates : List Candidate) : ResolvePhase :=
  match resolveHop roles call.iata call.parsed.hashSize p.hops p.chunk candidates with
  | .error result => .check p.generation (some result)
  | .ok hops => proceed p.generation hops p.rest

/-- The next step of `candidatesByPrefix`, with the cache that it leaves. -/
def lookupStep (w : World) (call : ResolveCall) (p : Progress) :
    LookupPhase → Option (Cache × ResolvePhase)
  | .lock =>
    if Unheld Proc.cacheMu w.procs then some (w.cache, .lookup p .load) else none
  | .load => some (w.cache, .lookup p (.find w.generation))
  | .find generation =>
    let key := candidateCacheKey call.iata call.parsed.hashSize p.chunk
    let cache := w.cache.sync generation
    match cache.candidates.find key with
    | some candidates =>
      some ({ cache with candidates := cache.candidates.touch key },
        .lookup p (.hit generation candidates))
    | none => some (cache, .lookup p (.query generation cache.epoch))
  | .hit generation candidates =>
    some (w.cache,
      if w.generation = generation then answer roles call p candidates else .lookup p .lock)
  | .query generation epoch =>
    some (w.cache, .lookup p (.queried generation epoch
      (w.tables.candidatesByPrefix (candidateCacheKey call.iata call.parsed.hashSize p.chunk))))
  | .queried generation epoch candidates =>
    some (w.cache,
      .lookup p (if w.generation ≠ generation then .lock else .relock generation epoch candidates))
  | .relock generation epoch candidates =>
    if Unheld Proc.cacheMu w.procs then
      some (w.cache, .lookup p (.reload generation epoch candidates))
    else none
  | .reload generation epoch candidates =>
    some (w.cache, .lookup p (.publish generation epoch candidates w.generation))
  | .publish generation epoch candidates latest =>
    if latest ≠ generation ∨ epoch ≠ w.cache.epoch then
      some (w.cache.sync latest, .lookup p .lock)
    else
      let key := candidateCacheKey call.iata call.parsed.hashSize p.chunk
      some ({ w.cache with candidates := Lru.store limit w.cache.candidates key candidates },
        answer roles call p candidates)

/-- The next step of `Resolve`, with the cache that it leaves. -/
def resolveStep (w : World) (call : ResolveCall) : ResolvePhase → Option (Cache × ResolvePhase)
  | .top => some (w.cache, .rlock)
  | .rlock => if Sharable Proc.candidateMu w.procs then some (w.cache, .load) else none
  | .load => some (w.cache, begin call w.generation)
  | .lookup p phase => lookupStep roles limit w call p phase
  | .check generation result => some (w.cache, .release result (w.generation = generation))
  | .release none _ => some (w.cache, .returned none)
  | .release (some result) stable =>
    some (w.cache, if stable then .returned (some result) else .top)
  | .returned _ => none

/-- The next step of `InvalidateCandidates`, with the cache that it leaves. -/
def invalidateStep (w : World) : InvalidatePhase → Option (Cache × InvalidatePhase)
  | .lock => if Unheld Proc.cacheMu w.procs then some (w.cache, .load) else none
  | .load => some (w.cache, .clear w.generation)
  | .clear generation => some (w.cache.clear generation, .returned)
  | .returned => none

/-- The next step of a mutation, with the generation that it leaves. -/
def mutateStep (w : World) : MutationPhase → Option (Nat × MutationPhase)
  | .lock => if Unheld Proc.candidateMu w.procs then some (w.generation, .bump) else none
  | .bump => some (w.generation + 1, .writing)
  | .writing => some (w.generation + 1, .unlock)
  | .unlock => some (w.generation, .returned)
  | .returned => none

/-- The next step of a goroutine. -/
def World.advance (w : World) (i : Nat) : Proc → Option World
  | .resolving call phase => (resolveStep roles limit w call phase).map fun next =>
      { w with cache := next.1 }.set i (.resolving call next.2)
  | .invalidating phase => (invalidateStep w phase).map fun next =>
      { w with cache := next.1 }.set i (.invalidating next.2)
  | .mutating phase => (mutateStep w phase).map fun next =>
      { w with generation := next.1 }.set i (.mutating next.2)

/-- Where `Resolve` returns an error. -/
def failPhase : ResolvePhase → Option ResolvePhase
  | .top => some (.returned none)
  | .lookup p (.query _ _) => some (.check p.generation none)
  | _ => none

def World.step (w : World) : Act → Option World
  | .resolve call => some { w with procs := w.procs ++ [.resolving call .top] }
  | .invalidate => some { w with procs := w.procs ++ [.invalidating .lock] }
  | .mutate => some { w with procs := w.procs ++ [.mutating .lock] }
  | .advance i => w.procs[i]?.bind (w.advance roles limit i)
  | .fail i =>
    match w.procs[i]? with
    | some (.resolving call phase) =>
      (failPhase phase).map fun next => w.set i (.resolving call next)
    | _ => none
  | .write i tables =>
    if w.procs[i]? = some (.mutating .writing) then some { w with tables } else none

/-- A resolver of these roles and this limit, with an empty cache. -/
def resolver : TSys World Act where
  init w := w.procs = [] ∧ w.cache = { candidates := .empty, generation := w.generation, epoch := 0 }
  step := World.step roles limit

end Steps

end CartoLive.Resolve
