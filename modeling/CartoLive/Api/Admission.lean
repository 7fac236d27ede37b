import CartoLive.Go.Text
import CartoLive.Lib.TSys
import Mathlib.Algebra.Order.Ring.Unbundled.Rat
import Mathlib.Data.Rat.Defs

/-!
# Admission of connections and requests

The limiter of `ws_admission.go`, `publicWebSocket` and the part of the hub that
counts its clients, for any number of requests at once. A request takes a slot
of its address, passes the hub's count check, is upgraded and only then
registered; it gives the slot back when `ServeHTTPWithClose` reports a failure
or when the close callback of its client runs.

A slot is held until that release has run: a removal is over when its close
callback is.
-/

namespace CartoLive.Api

open CartoLive.Go CartoLive.Lib

/-- The hub's limit on its clients. -/
def maxClients : Nat := 512

/-! ## The limiter -/

/-- `wsAdmissionLimiter`; an address that the map does not hold counts 0. -/
structure WsAdmissionLimiter where
  byIP : String → Nat
  maxPerIP : Nat

/-- `newWSAdmissionLimiter`. -/
def newWSAdmissionLimiter (maxPerIP : Int) : WsAdmissionLimiter :=
  { byIP := fun _ => 0, maxPerIP := if maxPerIP < 1 then 5 else maxPerIP.toNat }

/-- The key under which an address is counted. -/
def admissionKey (ip : String) : String :=
  let ip := trimSpace ip
  if ip = "" then "unknown" else ip

/-- `acquire`; `none` when the address has no slot left. -/
def WsAdmissionLimiter.acquire (l : WsAdmissionLimiter) (ip : String) :
    Option WsAdmissionLimiter :=
  let ip := admissionKey ip
  if l.maxPerIP ≤ l.byIP ip then none
  else some { l with byIP := Function.update l.byIP ip (l.byIP ip + 1) }

/-- `release`; the last slot deletes the entry. -/
def WsAdmissionLimiter.release (l : WsAdmissionLimiter) (ip : String) : WsAdmissionLimiter :=
  let ip := admissionKey ip
  if l.byIP ip ≤ 1 then { l with byIP := Function.update l.byIP ip 0 }
  else { l with byIP := Function.update l.byIP ip (l.byIP ip - 1) }

/-! ## Requests -/

inductive RequestPhase
  /-- The address had no slot left. -/
  | refused
  /-- The slot is taken; the count check is next. -/
  | admitted
  /-- The count check is passed and `Upgrade` under way. -/
  | upgrading
  /-- The client is in `h.clients`. -/
  | registered
  /-- A removal has deleted the client from `h.clients`. -/
  | removed
  /-- `ServeHTTPWithClose` reports that there was no upgrade; the release is next. -/
  | failed
  /-- That release has run. -/
  | released
  deriving DecidableEq

structure Request where
  ip : String
  phase : RequestPhase
  /-- The `removeWithReason` calls that found the client and have not come to the
  close callback. -/
  closing : Nat
  /-- `closeOnce` has run. -/
  closeOnce : Bool
  /-- The releases that this request has made. -/
  releases : Nat
  deriving DecidableEq

/-- The request holds a slot of its address: it is being upgraded, or connected
and not yet removed. -/
def Request.holds (r : Request) : Bool :=
  match r.phase with
  | .admitted | .upgrading | .registered | .failed => true
  | .removed => !r.closeOnce
  | .refused | .released => false

structure AdmissionState where
  limiter : WsAdmissionLimiter
  requests : List Request

/-- `len(h.clients)`. -/
def AdmissionState.clients (s : AdmissionState) : Nat :=
  s.requests.countP fun r => r.phase = .registered

/-- The requests between their count check and their registration. -/
def AdmissionState.upgrades (s : AdmissionState) : Nat :=
  s.requests.countP fun r => r.phase = .upgrading

/-- The slots of a key that are held. -/
def AdmissionState.held (s : AdmissionState) (key : String) : Nat :=
  s.requests.countP fun r => r.holds && admissionKey r.ip = key

def AdmissionState.setRequest (s : AdmissionState) (i : Nat) (r : Request) : AdmissionState :=
  { s with requests := s.requests.set i r }

@[simp] theorem AdmissionState.requests_setRequest (s : AdmissionState) (i : Nat) (r : Request) :
    (s.setRequest i r).requests = s.requests.set i r := rfl

/-! ## The system -/

inductive AdmissionAct
  /-- `publicWebSocket` up to its `acquire`. -/
  | request (ip : String)
  /-- `ServeHTTPWithClose` compares the number of clients. -/
  | check (i : Nat)
  | upgradeFails (i : Nat)
  /-- The upgrade has succeeded, and the client is registered. -/
  | register (i : Nat)
  /-- `removeWithReason` under the hub's lock: lag, a read error or a write error,
  any number of times. -/
  | remove (i : Nat)
  /-- A removal that found the client runs `closeOnce`. -/
  | close (i : Nat)
  /-- `publicWebSocket` releases after a failure. -/
  | release (i : Nat)

def newRequest (ip : String) (phase : RequestPhase) : Request :=
  { ip, phase, closing := 0, closeOnce := false, releases := 0 }

/-- `publicWebSocket` up to its `acquire`. -/
def publicWebSocket (s : AdmissionState) (ip : String) : AdmissionState :=
  match s.limiter.acquire ip with
  | none => { s with requests := s.requests ++ [newRequest ip .refused] }
  | some limiter => { limiter, requests := s.requests ++ [newRequest ip .admitted] }

/-- The close callback runs once; it releases the slot. -/
def onClose (s : AdmissionState) (i : Nat) (r : Request) : AdmissionState :=
  let r := { r with closing := r.closing - 1 }
  if r.closeOnce then s.setRequest i r
  else
    { s with limiter := s.limiter.release r.ip }.setRequest i
      { r with closeOnce := true, releases := r.releases + 1 }

def admissionStep (s : AdmissionState) : AdmissionAct → Option AdmissionState
  | .request ip => some (publicWebSocket s ip)
  | .check i => s.requests[i]?.bind fun r =>
    if r.phase = .admitted then
      if maxClients ≤ s.clients then some (s.setRequest i { r with phase := .failed })
      else some (s.setRequest i { r with phase := .upgrading })
    else none
  | .upgradeFails i => s.requests[i]?.bind fun r =>
    if r.phase = .upgrading then some (s.setRequest i { r with phase := .failed }) else none
  | .register i => s.requests[i]?.bind fun r =>
    if r.phase = .upgrading then some (s.setRequest i { r with phase := .registered }) else none
  | .remove i => s.requests[i]?.bind fun r =>
    match r.phase with
    | .registered => some (s.setRequest i { r with phase := .removed, closing := r.closing + 1 })
    -- the client is no longer in the map
    | .removed => some s
    | _ => none
  | .close i => s.requests[i]?.bind fun r => if 0 < r.closing then some (onClose s i r) else none
  | .release i => s.requests[i]?.bind fun r =>
    if r.phase = .failed then
      some ({ s with limiter := s.limiter.release r.ip }.setRequest i
        { r with phase := .released, releases := r.releases + 1 })
    else none

/-- The server without a connection. -/
def AdmissionState.start (maxPerIP : Int) : AdmissionState :=
  { limiter := newWSAdmissionLimiter maxPerIP, requests := [] }

def admission (maxPerIP : Int) : TSys AdmissionState AdmissionAct where
  init s := s = .start maxPerIP
  step := admissionStep

/-! ## What the limiter does -/

theorem newWSAdmissionLimiter_pos (maxPerIP : Int) :
    0 < (newWSAdmissionLimiter maxPerIP).maxPerIP := by
  unfold newWSAdmissionLimiter
  dsimp only
  split <;> omega

/-- An acquired slot counts one more for its key, within the limit. -/
theorem WsAdmissionLimiter.acquire_spec {l l' : WsAdmissionLimiter} {ip : String}
    (h : l.acquire ip = some l') : l'.maxPerIP = l.maxPerIP ∧
      (∀ key, l'.byIP key = l.byIP key + if admissionKey ip = key then 1 else 0) ∧
      l'.byIP (admissionKey ip) ≤ l.maxPerIP := by
  unfold WsAdmissionLimiter.acquire at h
  dsimp only at h
  split at h
  · cases h
  · rename_i hroom
    cases h
    refine ⟨rfl, fun key => ?_, ?_⟩
    · by_cases hkey : admissionKey ip = key
      · simp [← hkey]
      · simp [hkey, Ne.symm hkey]
    · dsimp only
      rw [Function.update_self]
      omega

/-- A release counts one less for its key, and 0 stays 0. -/
theorem WsAdmissionLimiter.byIP_release (l : WsAdmissionLimiter) (ip key : String) :
    (l.release ip).byIP key = l.byIP key - if admissionKey ip = key then 1 else 0 := by
  unfold WsAdmissionLimiter.release
  by_cases hkey : admissionKey ip = key
  · subst hkey
    dsimp only
    split
    · simp
      omega
    · simp
  · dsimp only
    split <;> simp [Ne.symm hkey]

@[simp] theorem WsAdmissionLimiter.maxPerIP_release (l : WsAdmissionLimiter) (ip : String) :
    (l.release ip).maxPerIP = l.maxPerIP := by
  unfold WsAdmissionLimiter.release
  dsimp only
  split <;> rfl

end CartoLive.Api

/-!
## The rate limiter

`rateLimiter` of `routes.go`: a bucket of tokens for each client, which refills
with time and is forgotten when it has been idle. Tokens are exact rationals and
times are nanoseconds.
-/

namespace CartoLive.Api

structure RateBucket where
  tokens : ℚ
  lastSeen : Int
  deriving DecidableEq

structure RateLimiter where
  clients : String → Option RateBucket
  rate : Nat
  burst : Nat

/-- `newRateLimiter`. -/
def newRateLimiter (ratePerMinute burst : Nat) : RateLimiter :=
  { clients := fun _ => none, rate := ratePerMinute, burst }

/-- The field `cleanup`: five minutes. -/
def rateCleanup : Int := 300000000000

/-- `duration.Seconds()`. -/
def seconds (duration : Int) : ℚ := duration / 1000000000

namespace RateLimiter

variable (rl : RateLimiter)

def setBucket (ip : String) (bucket : Option RateBucket) : RateLimiter :=
  { rl with clients := fun other => if other = ip then bucket else rl.clients other }

/-- The bucket of a client, a full one if there is none. -/
def bucketAt (ip : String) (now : Int) : RateBucket :=
  (rl.clients ip).getD { tokens := rl.burst, lastSeen := now }

/-- The tokens of a bucket at a time. -/
def refilled (bucket : RateBucket) (now : Int) : ℚ :=
  let elapsed := now - bucket.lastSeen
  let tokens :=
    if 0 < elapsed then bucket.tokens + seconds elapsed * rl.rate / 60 else bucket.tokens
  if (rl.burst : ℚ) < tokens then rl.burst else tokens

/-- `allowAt`. -/
def allowAt (ip : String) (now : Int) : Bool × RateLimiter :=
  let tokens := rl.refilled (rl.bucketAt ip now) now
  if tokens < 1 then (false, rl.setBucket ip (some { tokens, lastSeen := now }))
  else (true, rl.setBucket ip (some { tokens := tokens - 1, lastSeen := now }))

/-- A tick of `cleanupLoop`. -/
def cleanupAt (now : Int) : RateLimiter :=
  { rl with
    clients := fun ip => (rl.clients ip).filter fun bucket => !(bucket.lastSeen < now - rateCleanup) }

end RateLimiter

/-- What happens to a limiter. -/
inductive RateEvent
  | allow (ip : String) (now : Int)
  | tick (now : Int)
  deriving DecidableEq

/-- The answer to a call. -/
structure RateAnswer where
  ip : String
  now : Int
  allowed : Bool
  deriving DecidableEq

/-- A run of a limiter, with the answers so far. -/
structure RateRun where
  limiter : RateLimiter
  answers : List RateAnswer

def RateRun.step (run : RateRun) : RateEvent → RateRun
  | .allow ip now =>
    let (allowed, limiter) := run.limiter.allowAt ip now
    { limiter, answers := run.answers ++ [{ ip, now, allowed }] }
  | .tick now => { run with limiter := run.limiter.cleanupAt now }

/-- The run of a new limiter. -/
def rateRun (ratePerMinute burst : Nat) (events : List RateEvent) : RateRun :=
  events.foldl RateRun.step { limiter := newRateLimiter ratePerMinute burst, answers := [] }

end CartoLive.Api
