import CartoLive.Lib.Statements
import CartoLive.Store.Nodes

/-!
# Advert upserts under failure

`UpsertAdvertNode` runs its statements one by one on the database, where
`upsertStatusNode` runs nearly the same ones in a transaction. A call that fails
at its first statement leaves the tables alone; one that fails later leaves the
node counted. So a retried advert is counted once exactly when every failed
attempt failed at its first statement (`counted_once_iff`).
-/

namespace CartoLive.Theorems.AdvertUpserts

open CartoLive.Go CartoLive.Lib CartoLive.Live CartoLive.Meshcore CartoLive.Store

section Env

variable [LiveEnv] {t t' : NodeTables}

/-! ## Counts -/

/-- `observation_count` of a node. -/
def nodeCount (t : NodeTables) (publicKey : String) : Int :=
  NodeRow.counting.countAt publicKey t.nodes

/-- `observation_count` of a node in a region. -/
def regionCount (t : NodeTables) (publicKey iata : String) : Int :=
  NodeIATARow.counting.countAt (publicKey, toUpper iata) t.nodeIATAs

omit [LiveEnv] in
theorem counts_upsertNode {row : NodeRow} {update : NodeRow → NodeRow}
    (h : t.upsertNode row update = some t') (hkey : ∀ n, (update n).publicKey = n.publicKey)
    (hcount : ∀ n, (update n).observationCount = n.observationCount + 1)
    (hone : row.observationCount = 1) :
    nodeCount t' row.publicKey = nodeCount t row.publicKey + 1 ∧ t'.nodeIATAs = t.nodeIATAs := by
  obtain ⟨-, h⟩ := Option.ite_none_left_eq_some.mp h
  cases h
  refine ⟨?_, rfl⟩
  refine (Counting.countAt_bump (t := NodeRow.counting) (k := row.publicKey)
    (fun n hn => (hkey n).trans hn) rfl hcount hone t.nodes row.publicKey).trans ?_
  rw [if_pos rfl]
  rfl

/-- The nodes upsert counts its node. -/
theorem counts_upsertAdvert {nodeID : String} {advert : Advert} {heardAt : Int}
    (h : t.upsertAdvert nodeID advert heardAt = some t') (iata : String) :
    nodeCount t' advert.publicKey = nodeCount t advert.publicKey + 1 ∧
      regionCount t' advert.publicKey iata = regionCount t advert.publicKey iata := by
  obtain ⟨hcount, hregions⟩ := counts_upsertNode h (fun _ => rfl) (fun _ => rfl) rfl
  exact ⟨hcount, by rw [regionCount, hregions]; rfl⟩

omit [LiveEnv] in
/-- The region upsert counts its region. -/
theorem counts_upsertNodeIATA {publicKey iata : String} {seenAt : Int}
    (h : t.upsertNodeIATA publicKey iata seenAt = some t') :
    nodeCount t' publicKey = nodeCount t publicKey ∧
      regionCount t' publicKey iata = regionCount t publicKey iata + 1 := by
  obtain ⟨-, h⟩ := Option.ite_none_right_eq_some.mp h
  cases h
  refine ⟨rfl, ?_⟩
  refine (Counting.countAt_bump (t := NodeIATARow.counting) (k := (publicKey, toUpper iata))
    (fun r hr => ?_) rfl (fun _ => rfl) rfl t.nodeIATAs (publicKey, toUpper iata)).trans ?_
  · exact hr
  · rw [if_pos rfl]
    rfl

/-- The statements behind the region upsert. -/
def laterStatements (publicKey iata role : String) (seenAt : Int) : List NodeStatement :=
  shortIDStatements publicKey iata role seenAt ++ [.readNode publicKey]

/-- The statements behind the region upsert count nothing. -/
theorem counts_later {publicKey iata role : String} {seenAt : Int} {stmt : NodeStatement}
    (hstmt : stmt ∈ laterStatements publicKey iata role seenAt) (h : NodeTables.exec stmt t = some t') : t'.nodes = t.nodes ∧ t'.nodeIATAs = t.nodeIATAs := by
  rcases List.mem_append.mp hstmt with hshort | hread
  · obtain ⟨size, -, rfl⟩ := List.mem_map.mp hshort
    obtain ⟨-, h⟩ := Option.ite_none_right_eq_some.mp h
    cases h
    exact ⟨rfl, rfl⟩
  · cases List.mem_singleton.mp hread
    obtain ⟨_, -, rfl⟩ := Option.map_eq_some_iff.mp h
    exact ⟨rfl, rfl⟩

/-! ## One call -/

/-- An attempt of `retryStoreWriteLane`: the identifier it makes, and the number of the statement
that fails with a transient error. -/
structure Attempt where
  nodeID : String
  fault : Option Nat

section Call

variable (iata : String) (advert : Advert) (heardAt : Int)

/-- A call of `UpsertAdvertNode`: the tables it leaves, and whether it returns a node. -/
def call (a : Attempt) (t : NodeTables) : NodeTables × Bool :=
  autocommit NodeTables.exec (upsertAdvertNode a.nodeID iata advert heardAt) a.fault t

/-- The nodes upsert fails. -/
def FailsFirst (a : Attempt) (t : NodeTables) : Prop :=
  a.fault = some 0 ∨ t.upsertAdvert a.nodeID advert heardAt = none

variable {iata advert heardAt} {a : Attempt}

theorem call_of_failsFirst (h : FailsFirst advert heardAt a t) :
    call iata advert heardAt a t = (t, false) :=
  autocommit_first_fails h

/-- A call that gets past the nodes upsert has counted the node, and if it succeeds the region. -/
theorem counts_call (iata : String) (h : ¬FailsFirst advert heardAt a t) :
    nodeCount (call iata advert heardAt a t).1 advert.publicKey =
        nodeCount t advert.publicKey + 1 ∧
      ((call iata advert heardAt a t).2 = true →
        regionCount (call iata advert heardAt a t).1 advert.publicKey iata =
          regionCount t advert.publicKey iata + 1) := by
  have hlater : ∀ fault t, (autocommit NodeTables.exec
      (laterStatements advert.publicKey iata advert.role heardAt) fault t).1.nodes = t.nodes ∧
      (autocommit NodeTables.exec
        (laterStatements advert.publicKey iata advert.role heardAt) fault t).1.nodeIATAs =
          t.nodeIATAs := by
    intro fault t
    constructor
    · exact autocommit_measure (μ := NodeTables.nodes) fun stmt hstmt s s' hexec =>
        (counts_later hstmt hexec).1
    · exact autocommit_measure (μ := NodeTables.nodeIATAs) fun stmt hstmt s s' hexec =>
        (counts_later hstmt hexec).2
  have hfirst : ∃ t₁, t.upsertAdvert a.nodeID advert heardAt = some t₁ ∧
      call iata advert heardAt a t = autocommit NodeTables.exec
        (.nodeIATA advert.publicKey iata heardAt ::
          laterStatements advert.publicKey iata advert.role heardAt)
        (a.fault.map fun n => n - 1) t₁ := by
    have hruns : ¬(a.fault = some 0 ∨
      NodeTables.exec (.advert a.nodeID advert heardAt) t = none) := h
    exact autocommit_first_runs _ hruns
  obtain ⟨t₁, hadvert, hcall⟩ := hfirst
  obtain ⟨hnode, hregion⟩ := counts_upsertAdvert hadvert iata
  rw [hcall]
  by_cases hsecond : a.fault.map (fun n => n - 1) = some 0 ∨
      NodeTables.exec (.nodeIATA advert.publicKey iata heardAt) t₁ = none
  · rw [autocommit_first_fails hsecond]
    exact ⟨hnode, nofun⟩
  · obtain ⟨t₂, hiata, hrun⟩ := autocommit_first_runs _ hsecond
    obtain ⟨hnode₂, hregion₂⟩ := counts_upsertNodeIATA hiata
    rw [hrun]
    refine ⟨?_, fun _ => ?_⟩
    · rw [nodeCount, (hlater _ t₂).1]
      exact hnode₂.trans hnode
    · rw [regionCount, (hlater _ t₂).2]
      exact hregion₂.trans (congrArg (· + 1) hregion)

/-- A call changes nothing exactly when its first statement fails. -/
theorem call_unchanged_iff :
    (call iata advert heardAt a t).1 = t ↔ FailsFirst advert heardAt a t := by
  constructor
  · intro hsame
    by_contra h
    have hcounted := (counts_call iata h).1
    rw [hsame] at hcounted
    omega
  · intro h
    rw [call_of_failsFirst h]

end Call

/-! ## Retries -/

/-- The failing attempts of a retry loop changed nothing. -/
def EachFailsFirst (iata : String) (advert : Advert) (heardAt : Int) (failures : List Attempt)
    (t : NodeTables) : Prop :=
  AllAlong (call iata advert heardAt) (FailsFirst advert heardAt) failures t

/-- A failing call leaves the tables as they were exactly when its nodes upsert is what failed; and
when calls are repeated until one succeeds, node and region are counted once exactly when every
failed call failed there. -/
theorem counted_once_iff (t : NodeTables) (iata : String) (advert : Advert) (heardAt : Int) :
    (∀ a, (call iata advert heardAt a t).2 = false →
      ((call iata advert heardAt a t).1 = t ↔ FailsFirst advert heardAt a t)) ∧
    ∀ (failures : List Attempt) (last : Attempt),
      AllAlong (call iata advert heardAt) (fun a t => (call iata advert heardAt a t).2 = false)
        failures t →
      (call iata advert heardAt last (retry (call iata advert heardAt) failures t)).2 = true →
      (nodeCount (call iata advert heardAt last
            (retry (call iata advert heardAt) failures t)).1 advert.publicKey =
          nodeCount t advert.publicKey + 1 ∧
        regionCount (call iata advert heardAt last
            (retry (call iata advert heardAt) failures t)).1 advert.publicKey iata =
          regionCount t advert.publicKey iata + 1 ↔
        EachFailsFirst iata advert heardAt failures t) := by
  refine ⟨fun a _ => call_unchanged_iff, fun failures last _ hlast => ?_⟩
  have hquiet : ∀ a t, FailsFirst advert heardAt a t → (call iata advert heardAt a t).1 = t :=
    fun _ _ => call_unchanged_iff.mpr
  have hloud : ∀ a t, ¬FailsFirst advert heardAt a t →
      nodeCount t advert.publicKey < nodeCount (call iata advert heardAt a t).1 advert.publicKey := by
    intro a t h
    have := (counts_call iata h).1
    omega
  have hruns : ¬FailsFirst advert heardAt last (retry (call iata advert heardAt) failures t) := by
    intro hfails
    rw [call_of_failsFirst hfails] at hlast
    cases hlast
  obtain ⟨hnode, hregion⟩ := counts_call iata hruns
  rw [hnode, hregion hlast]
  constructor
  · rintro ⟨hcount, -⟩
    exact (retry_measure_iff (μ := fun t => nodeCount t advert.publicKey) hquiet hloud).mp
      (by omega)
  · intro hall
    rw [retry_of_allAlong hquiet hall]
    exact ⟨rfl, rfl⟩

end Env

/-! ## A busy database -/

attribute [local instance] defaultEnv

def noNodes : NodeTables := { nodes := [], nodeIATAs := [], nodeShortIDs := [] }

def repeaterAdvert : Advert :=
  { publicKey := String.ofList (.replicate 64 '1'), nodeType := 2, role := "repeater"
    latitude := none, longitude := none, name := "Hilltop", locationSource := "" }

/-- The nodes upsert is busy once. -/
theorem counted_once_after_busy :
    nodeCount (call "YKF" repeaterAdvert 1 ⟨"n2", none⟩
          (retry (call "YKF" repeaterAdvert 1) [⟨"n1", some 0⟩] noNodes)).1
        repeaterAdvert.publicKey = nodeCount noNodes repeaterAdvert.publicKey + 1 ∧
      regionCount (call "YKF" repeaterAdvert 1 ⟨"n2", none⟩
          (retry (call "YKF" repeaterAdvert 1) [⟨"n1", some 0⟩] noNodes)).1
        repeaterAdvert.publicKey "YKF" = regionCount noNodes repeaterAdvert.publicKey "YKF" + 1 :=
  ((counted_once_iff noNodes "YKF" repeaterAdvert 1).2 [⟨"n1", some 0⟩] ⟨"n2", none⟩
    ⟨rfl, trivial⟩ (by decide +kernel)).mpr ⟨.inl rfl, trivial⟩

/-- The region upsert is busy, and the node stays counted. -/
theorem left_counted : ¬ ∀ (t : NodeTables) (iata : String) (advert : Advert) (heardAt : Int),
    (∀ a, (call iata advert heardAt a t).2 = false → (call iata advert heardAt a t).1 = t) ∧
    ∀ (failures : List Attempt) (last : Attempt),
      AllAlong (call iata advert heardAt) (fun a t => (call iata advert heardAt a t).2 = false)
        failures t →
      (call iata advert heardAt last (retry (call iata advert heardAt) failures t)).2 = true →
      nodeCount (call iata advert heardAt last
            (retry (call iata advert heardAt) failures t)).1 advert.publicKey =
          nodeCount t advert.publicKey + 1 ∧
        regionCount (call iata advert heardAt last
            (retry (call iata advert heardAt) failures t)).1 advert.publicKey iata =
          regionCount t advert.publicKey iata + 1 := by
  intro h
  have hsame := (h noNodes "YKF" repeaterAdvert 1).1 ⟨"n1", some 1⟩ rfl
  have hcounted : ((call "YKF" repeaterAdvert 1 ⟨"n1", some 1⟩ noNodes).1.nodes.length) = 1 := by
    decide +kernel
  rw [hsame] at hcounted
  cases hcounted

end CartoLive.Theorems.AdvertUpserts
