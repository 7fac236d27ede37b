import CartoLive.App.PublicBackfill
import CartoLive.Store.SearchIndex

/-!
# Backfills drain

Repeated calls of `BackfillPublicPacketPaths` come to an end: a call that reports that
something remains has given a row to an edge of its window, mappable or not, or an entry
of the search index to a row, and nothing takes these back.
-/

namespace CartoLive.Theorems.BackfillDrains

open CartoLive.App CartoLive.Live CartoLive.Store

section Env

variable [LiveEnv]

/-- A call over a window. -/
structure BackfillCall where
  now : Int
  limit : Int

/-- The edges of a window without a row, and the mappable rows without an entry. -/
def pending (now fromMs toMs : Int) (db : IndexedDatabase) : Nat :=
  (db.missing now fromMs toMs).length + db.unindexed.length

/-- The same over all edges, which bounds the work of any calls. -/
def backlog (db : IndexedDatabase) : Nat :=
  (db.rowless fun _ => true).length + db.unindexed.length

/-- What a call reports of `Remaining`, and what it leaves. -/
def run (fromMs toMs : Int) (calls : Nat → BackfillCall) (n : Nat) (db : IndexedDatabase) :
    Option (Bool × IndexedDatabase) :=
  (db.backfillPublicPacketPaths (calls n).now fromMs toMs (calls n).limit).map fun called =>
    (called.1.remaining, called.2)

/-- Every call over the window succeeds and reports that something remains only if it has made
progress, and any calls, one after the other, end with every edge of the window projected once. -/
structure Drains (fromMs toMs : Int) (db : IndexedDatabase) : Prop where
  progress : ∀ now limit, ∃ result db',
    db.backfillPublicPacketPaths now fromMs toMs limit = some (result, db') ∧ db'.Keyed ∧
      (result.remaining = true → pending now fromMs toMs db' < pending now fromMs toMs db)
  ends : ∀ calls : Nat → BackfillCall, ∃ last db',
    runPublicBackfillStage (run fromMs toMs calls) (backlog db + 1) 0 db = some (last, db') ∧
      db'.edges = db.edges ∧
      db'.publicPacketPathProjectionComplete (calls last).now fromMs toMs = true ∧
      ∀ edge ∈ db.edges, fromMs ≤ edge.heardAt →
        edge.heardAt ≤ boundedHistoryTo (calls last).now toMs →
          (db'.packetPaths.countP fun row => row.edgeID = edge.id) = 1

omit [LiveEnv] in
/-- An identifier that a table with a primary key has, it has once. -/
theorem countP_edgeID {rows : List PacketPathRow} (h : (rows.map PacketPathRow.edgeID).Nodup)
    {id : Int} (hid : id ∈ rows.map PacketPathRow.edgeID) :
    (rows.countP fun row => row.edgeID = id) = 1 := by
  induction rows with
  | nil => cases hid
  | cons row rows ih =>
    rw [List.map_cons, List.nodup_cons] at h
    rw [List.countP_cons]
    by_cases hrow : row.edgeID = id
    · have hrest : (rows.countP fun row => row.edgeID = id) = 0 :=
        List.countP_eq_zero.mpr fun other hother hsame =>
          h.1 (hrow ▸ of_decide_eq_true hsame ▸ List.mem_map_of_mem hother)
      rw [hrest, if_pos (decide_eq_true hrow)]
    · rw [ih h.2 ((List.mem_cons.mp hid).resolve_left (Ne.symm hrow)), if_neg (by simpa using hrow)]

/-- Backfills of a window drain, from any rows and entries. -/
theorem backfill_drains {db : IndexedDatabase} (h : db.Keyed) (fromMs toMs : Int) :
    Drains fromMs toMs db := by
  constructor
  · intro now limit
    obtain ⟨result, db', hcall, hcalled⟩ := IndexedDatabase.exists_called h now fromMs toMs limit
      (q := fun edge => decide (fromMs ≤ edge.heardAt) &&
        decide (edge.heardAt ≤ boundedHistoryTo now toMs))
      fun edge hfrom hto => by
        rw [decide_eq_true hfrom, decide_eq_true hto]
        rfl
    exact ⟨result, db', hcall, hcalled.keyed, hcalled.progress⟩
  · intro calls
    have hcall : ∀ n s, s.Keyed ∧ s.edges = db.edges → ∃ remaining s',
        run fromMs toMs calls n s = some (remaining, s') ∧ (s'.Keyed ∧ s'.edges = db.edges) ∧
          (remaining = true → backlog s' < backlog s) := by
      rintro n s ⟨hkeyed, hedges⟩
      obtain ⟨result, s', hcall, hcalled⟩ := IndexedDatabase.exists_called hkeyed (calls n).now
        fromMs toMs (calls n).limit (q := fun _ => true) fun _ _ _ => rfl
      exact ⟨result.remaining, s', by rw [run, hcall]; rfl,
        ⟨hcalled.keyed, hcalled.edges.trans hedges⟩, hcalled.progress⟩
    obtain ⟨last, before, db', hstage, ⟨hkeyed, hedges⟩, hlast⟩ :=
      exists_runPublicBackfillStage hcall 0 ⟨h, rfl⟩ (Nat.lt_succ_self (backlog db))
    -- the last call has reported that nothing remains
    obtain ⟨result, after, hcall, hcalled⟩ := IndexedDatabase.exists_called hkeyed (calls last).now
      fromMs toMs (calls last).limit (q := fun _ => true) fun _ _ _ => rfl
    rw [run, hcall] at hlast
    obtain ⟨hremaining, rfl⟩ := Prod.mk.inj (Option.some.inj hlast)
    have hcomplete := hcalled.complete hremaining
    refine ⟨last, after, hstage, hcalled.edges.trans hedges, hcomplete, fun edge hedge hfrom hto => ?_⟩
    refine countP_edgeID hcalled.keyed.rows ?_
    by_contra hnone
    have hmissing : edge ∈ after.missing (calls last).now fromMs toMs :=
      PathDatabase.mem_missing.mpr
        ⟨by rw [hcalled.edges, hedges]; exact hedge, ⟨hfrom, hto⟩, hnone⟩
    rw [PathDatabase.complete_iff.mp hcomplete] at hmissing
    cases hmissing

end Env

section Sample

attribute [local instance] defaultEnv

def sampleEdge (id : Int) : EdgeEvent :=
  { ingestID := "", id, packetHash := "1F2E", observationID := id, iata := "YVR"
    payloadTypeName := "TXT_MSG", messageSender := "", messageText := "", messageAnchor := none
    heardAt := 1000 * id, segments := [] }

/-- Two unmappable edges and a mappable row without an entry, whose edge is the third. -/
def partlyProjected : IndexedDatabase :=
  { emptyDatabase with
    edges := [sampleEdge 1, sampleEdge 2, sampleEdge 3]
    packetPaths := [{ insertPublicPacketPath (sampleEdge 3) "YVR" with mappable := true }]
    searchText := fun _ => "pulse-3"
    searchIndex := [] }

theorem backfill_drains_partlyProjected : Drains 0 0 partlyProjected :=
  backfill_drains ⟨by decide +kernel, by decide +kernel, by decide +kernel⟩ 0 0

end Sample

end CartoLive.Theorems.BackfillDrains
