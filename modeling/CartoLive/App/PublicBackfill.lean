import CartoLive.App.DerivedQueues
import CartoLive.Mqtt.Client

/-!
# The gate of the backfills

A stage of the backfills of `lifecycle.go` repeats its call until nothing remains.
`publicBackfillAllowed`, which backfills wait for, reads the
statistics of the MQTT client and of the derived queue. Here the two run together:
`handleMQTTOutcome` enqueues at most one derived job for a message, and what the
enqueue returned is what becomes of the message.
-/

namespace CartoLive.App

open CartoLive.Lib CartoLive.Mqtt

/-! ## The gate -/

/-- The part of `RuntimeStatsSnapshot` that the gate reads. -/
structure RuntimeStatsSnapshot where
  derivedAccepted : Nat
  derivedProcessed : Nat
  derivedQueueDepth : Nat
  derivedOldestAtMs : Int
  deriving DecidableEq

/-- `publicBackfillLiveQuietWindow`, in milliseconds. -/
def publicBackfillLiveQuietWindow : Int := 2000

def publicBackfillAllowed (mqttStatus : Status) (runtimeStatus : RuntimeStatsSnapshot)
    (storageState : String) (nowMs : Int) : Bool × String :=
  if storageState = "warn" ∨ storageState = "critical" then (false, "storage_pressure")
  else if mqttStatus.queueDepth > 0 ∨ mqttStatus.oldestQueueItemAgeMs > 0 ∨
      mqttStatus.acceptedMessages > mqttStatus.processedMessages then
    (false, "primary_ingest_active")
  else if mqttStatus.lastMessageAt > 0 ∧
      mqttStatus.lastMessageAgeMs < publicBackfillLiveQuietWindow then
    (false, "primary_ingest_recent")
  else if runtimeStatus.derivedQueueDepth > 0 ∨
      ageMs nowMs runtimeStatus.derivedOldestAtMs > 0 ∨
      runtimeStatus.derivedAccepted > runtimeStatus.derivedProcessed then
    (false, "derived_ingest_active")
  else (true, "")

/-! ## Stages -/

section Stages

variable {σ : Type}

/-- A stage of `runPublicBackfillStages` whose calls return no error: call after call until one
reports that nothing remains. The number of the last call, and what it leaves. -/
def runPublicBackfillStage (run : Nat → σ → Option (Bool × σ)) : Nat → Nat → σ → Option (Nat × σ)
  | 0, _, _ => none
  | fuel + 1, n, s =>
    (run n s).bind fun called =>
      if called.1 then runPublicBackfillStage run fuel (n + 1) called.2 else some (n, called.2)

/-- A stage ends where a call that leaves something to do lowers a measure. -/
theorem exists_runPublicBackfillStage {run : Nat → σ → Option (Bool × σ)} {P : σ → Prop}
    {μ : σ → Nat}
    (hcall : ∀ n s, P s → ∃ remaining s', run n s = some (remaining, s') ∧ P s' ∧
      (remaining = true → μ s' < μ s))
    {fuel : Nat} (n : Nat) {s : σ} (hs : P s) (hfuel : μ s < fuel) :
    ∃ last before s', runPublicBackfillStage run fuel n s = some (last, s') ∧ P before ∧
      run last before = some (false, s') := by
  induction fuel generalizing n s with
  | zero => omega
  | succ fuel ih =>
    obtain ⟨remaining, s', hrun, hs', hless⟩ := hcall n s hs
    cases remaining with
    | false =>
      refine ⟨n, s, s', ?_, hs, hrun⟩
      rw [runPublicBackfillStage, hrun]
      rfl
    | true =>
      have := hless rfl
      obtain ⟨last, before, s'', hstage, hbefore, hlast⟩ := ih (n + 1) hs' (by omega)
      refine ⟨last, before, s'', ?_, hbefore, hlast⟩
      rw [runPublicBackfillStage, hrun]
      exact hstage

end Stages

/-! ## The client and the derived queue -/

/-- The MQTT client, and the derived queue that its handler enqueues on. -/
structure LiveIngest (β : Type) where
  intake : Intake
  derived : TimedQueue β
  /-- What the enqueue for the message in hand returned. -/
  enqueued : Option Bool
  deriving DecidableEq

section Steps

variable {β : Type}

/-- `Snapshot`, read at one moment. -/
def TimedQueue.snapshot (q : TimedQueue β) : RuntimeStatsSnapshot :=
  { derivedAccepted := q.accepted
    derivedProcessed := q.processed
    derivedQueueDepth := q.depth
    derivedOldestAtMs := q.oldestAtMs }

/-- The handler may end so: after an enqueue it tells what the enqueue returned. -/
def LiveIngest.handlerEnds (s : LiveIngest β) (outcome : Option HandleOutcome) : Bool :=
  match s.derived.enqueuer, s.enqueued with
  | .idle, none => true
  | .idle, some true => outcome = some .processed
  | .idle, some false => outcome = some .failed
  | _, _ => false

/-- The handler runs, and has not enqueued. -/
def LiveIngest.mayEnqueue (s : LiveIngest β) : Bool :=
  match s.intake.worker, s.enqueued with
  | .handling _, none => true
  | _, _ => false

/-- What a call returned since the answers were these. -/
def newAnswer (answers answers' : List (QueueJob β × Bool)) : Option Bool :=
  (answers'.drop answers.length).head?.map Prod.snd

inductive LiveIngestAct (β : Type)
  /-- A step of the client. -/
  | intake (a : IntakeAct)
  /-- A step of the derived queue. -/
  | queue (a : QueueAct β)
  /-- The context of both ends. -/
  | cancel
  deriving DecidableEq

def LiveIngest.step (queueSize capacity : Nat) (s : LiveIngest β) :
    LiveIngestAct β → Option (LiveIngest β)
  | .intake .cancel => none
  | .intake (.work outcome) =>
    match s.intake.worker with
    | .handling _ =>
      if s.handlerEnds outcome then
        (s.intake.workStep outcome).map fun intake => { s with intake, enqueued := none }
      else none
    | _ => (s.intake.workStep outcome).map fun intake => { s with intake }
  | .intake a => (s.intake.step queueSize a).map fun intake => { s with intake }
  | .queue .cancel => none
  | .queue (.enqueue job) =>
    if s.mayEnqueue then
      ((derivedQueue β capacity).step s.derived (.enqueue job)).map fun derived =>
        { s with derived }
    else none
  | .queue a =>
    ((derivedQueue β capacity).step s.derived a).map fun derived =>
      { s with
        derived
        enqueued := (newAnswer s.derived.answers derived.answers).or s.enqueued }
  | .cancel =>
    some { s with
      intake := { s.intake with cancelled := true }
      derived := { s.derived with cancelled := true } }

/-- The client with a queue of `queueSize` before a derived queue of `capacity`. -/
def liveIngest (β : Type) (queueSize capacity : Nat) : TSys (LiveIngest β) (LiveIngestAct β) where
  init s := s = { intake := startedIntake, derived := .empty, enqueued := none }
  step := LiveIngest.step queueSize capacity

end Steps

end CartoLive.App
