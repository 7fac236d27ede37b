import Mathlib.Data.List.Induction
import CartoLive.App.Propagation
import CartoLive.Lib.Windows

/-!
# Propagation candidates and starvation

A refresh takes the 40 newest candidates and drops those of excluded regions only then.
They get no event, so they are candidates of every later refresh: 40 of them that are
newer than a path keep the path from its event for as long as they are in the window.
Here is when a refresh creates an event, and that refreshes that do leave no path
behind.

## Main results

* `creates_iff`: a refresh creates an event exactly if a wanted path has fewer than 40
  newer candidates of excluded regions.
* `candidates_served_iff`: paths are served exactly where they are not blocked so, and
  unblocked refreshes serve every path.
-/

namespace CartoLive.Theorems.PropagationProgress

open CartoLive.Lib CartoLive.Go CartoLive.Live CartoLive.Store CartoLive.App
open CartoLive.App.PropagationSettings

/-! ## The property and its condition -/

/-- A path that should get an event: in the window, on the map, allowed, long enough, with a
positive time. -/
structure Eligible (settings : PropagationSettings) (now : Int) (row : MeasuredRow) : Prop where
  mappable : row.mappable = true
  since : now - candidateWindow ≤ row.heardAt
  upTo : row.heardAt ≤ boundedHistoryTo now now
  distance : settings.minDistance.le row.distanceKM = true
  allowed : settings.excludes row.region row.iata = false
  heardAt : 0 < row.heardAt

/-- An eligible path that has no event yet. -/
structure Wanted (settings : PropagationSettings) (s : PropagationStore) (now : Int)
    (row : MeasuredRow) : Prop where
  stored : row ∈ s.paths
  eligible : Eligible settings now row
  pending : ¬s.HasEvent row.edgeID

/-- A refresh gives an event to an edge that had none. -/
def Creates (settings : PropagationSettings) (s : PropagationStore) (now : Int) : Prop :=
  ∃ edgeID, (settings.refreshPropagationOnce s now).HasEvent edgeID ∧ ¬s.HasEvent edgeID

def Newer (a b : MeasuredRow) : Prop := (measuredCursor b).Older (measuredCursor a)

instance : DecidableRel Newer := fun a b => by
  unfold Newer HistoryCursor.Older
  infer_instance

/-- The candidates of excluded regions that are newer than a path. -/
def excludedBefore (settings : PropagationSettings) (s : PropagationStore) (now : Int)
    (row : MeasuredRow) : List MeasuredRow :=
  (settings.candidates s now).filter fun other =>
    settings.excludes other.region other.iata && decide (Newer other row)

/-- If a path is wanted, then one that has fewer than 40 newer candidates of excluded regions. -/
def Unblocked (settings : PropagationSettings) (s : PropagationStore) (now : Int) : Prop :=
  (∃ row, Wanted settings s now row) →
    ∃ row, Wanted settings s now row ∧ (excludedBefore settings s now row).length < 40

/-- The store after refreshes at the given times. -/
def refreshes (settings : PropagationSettings) (s : PropagationStore) (times : List Int) :
    PropagationStore :=
  times.foldl settings.refreshPropagationOnce s

/-! ## One refresh -/

section Refresh

variable {settings : PropagationSettings} {s : PropagationStore} {now : Int} {row : MeasuredRow}

theorem wanted_iff :
    Wanted settings s now row ↔ row ∈ settings.candidates s now ∧ settings.Accepts row := by
  rw [mem_candidates]
  constructor
  · intro h
    have he := h.eligible
    exact ⟨⟨h.stored, he.mappable, he.since, he.upTo, he.distance, h.pending⟩,
      ⟨he.allowed, he.heardAt⟩⟩
  · rintro ⟨⟨hstored, hmappable, hsince, hupTo, hdistance, hpending⟩, haccepts⟩
    exact ⟨hstored, ⟨hmappable, hsince, hupTo, hdistance, haccepts.allowed, haccepts.heardAt⟩,
      hpending⟩

theorem pairwise_candidates (hprojected : Projected s.paths) (now : Int) :
    (settings.candidates s now).Pairwise Newer := by
  show (selectRows true measuredCursor none _ s.paths).Pairwise fun a b =>
    HistoryCursor.Before true (measuredCursor a) (measuredCursor b)
  exact Store.pairwise_selectRows (fun _ _ => rfl) hprojected.nodup none _

instance : IsStrictOrder MeasuredRow Newer where
  irrefl a := irrefl_of (HistoryCursor.Before true) (measuredCursor a)
  trans _ _ _ hab hbc := trans_of (HistoryCursor.Before true) hab hbc

/-- A newer candidate that is not accepted has an excluded region. -/
theorem excludes_of_not_accepts {other : MeasuredRow} (hrow : settings.Accepts row)
    (hnewer : Newer other row) :
    ¬settings.Accepts other ↔ settings.excludes other.region other.iata = true := by
  have hheard : 0 < other.heardAt := by
    have := hrow.heardAt
    have hle : row.heardAt ≤ other.heardAt := by
      rcases hnewer with hlt | ⟨heq, -⟩
      · exact le_of_lt hlt
      · exact le_of_eq heq
    omega
  constructor
  · intro hnot
    by_contra hallowed
    exact hnot ⟨Bool.not_eq_true _ ▸ hallowed, hheard⟩
  · intro hexcluded haccepts
    rw [haccepts.allowed] at hexcluded
    cases hexcluded

/-- **When a refresh creates an event.** -/
theorem creates_iff (hprojected : Projected s.paths) (now : Int) :
    Creates settings s now ↔
      ∃ row, Wanted settings s now row ∧ (excludedBefore settings s now row).length < 40 := by
  have hfirst : Creates settings s now ↔
      ∃ row ∈ (settings.candidates s now).take 40, decide (settings.Accepts row) = true := by
    unfold Creates
    constructor
    · rintro ⟨edgeID, hafter, hbefore⟩
      obtain ⟨row, hrow, haccepts, -⟩ :=
        ((hasEvent_refreshPropagationOnce hprojected now edgeID).mp hafter).resolve_right hbefore
      exact ⟨row, hrow, decide_eq_true haccepts⟩
    · rintro ⟨row, hrow, haccepts⟩
      refine ⟨row.edgeID, ?_, ?_⟩
      · exact (hasEvent_refreshPropagationOnce hprojected now row.edgeID).mpr
          (.inl ⟨row, hrow, of_decide_eq_true haccepts, rfl⟩)
      · exact (mem_candidates.mp (List.mem_of_mem_take hrow)).2.2.2.2.2
  rw [hfirst, exists_mem_take_iff (pairwise_candidates hprojected now)]
  refine exists_congr fun row => ?_
  rw [wanted_iff, and_assoc, decide_eq_true_eq]
  refine and_congr_right fun hrow => and_congr_right fun haccepts => ?_
  have hsame : ((settings.candidates s now).filter fun other =>
      !decide (settings.Accepts other) && decide (Newer other row)) =
        excludedBefore settings s now row := by
    refine List.filter_congr fun other _ => Bool.eq_iff_iff.mpr ?_
    simp only [Bool.and_eq_true, Bool.not_eq_true', decide_eq_false_iff_not, decide_eq_true_eq]
    exact and_congr_left fun hnewer => excludes_of_not_accepts haccepts hnewer
  rw [hsame]

/-! ## Refreshes one after the other -/

/-- The paths without an event. -/
def pending (s : PropagationStore) : Nat := s.paths.countP fun row => ¬s.HasEvent row.edgeID

theorem refreshes_concat (times : List Int) (now : Int) :
    refreshes settings s (times ++ [now]) =
      settings.refreshPropagationOnce (refreshes settings s times) now := by
  simp [refreshes, List.foldl_append]

theorem paths_refreshes (times : List Int) : (refreshes settings s times).paths = s.paths := by
  induction times using List.reverseRecOn with
  | nil => rfl
  | append_singleton times now ih => rw [refreshes_concat, paths_refreshPropagationOnce, ih]

/-- Events stay. -/
theorem hasEvent_mono (hprojected : Projected s.paths) (now : Int) {edgeID : Int}
    (h : s.HasEvent edgeID) : (settings.refreshPropagationOnce s now).HasEvent edgeID :=
  (hasEvent_refreshPropagationOnce hprojected now edgeID).mpr (.inr h)

/-- A refresh that creates an event leaves fewer paths without one. -/
theorem pending_lt (hprojected : Projected s.paths) (hcreates : Creates settings s now) :
    pending (settings.refreshPropagationOnce s now) < pending s := by
  obtain ⟨edgeID, hafter, hbefore⟩ := hcreates
  obtain ⟨row, hrow, -, rfl⟩ :=
    ((hasEvent_refreshPropagationOnce hprojected now edgeID).mp hafter).resolve_right hbefore
  have hstored := (mem_candidates.mp (List.mem_of_mem_take hrow)).1
  unfold pending
  rw [paths_refreshPropagationOnce, List.countP_eq_length_filter, List.countP_eq_length_filter]
  have hsub : (s.paths.filter fun row =>
      ¬(settings.refreshPropagationOnce s now).HasEvent row.edgeID) =
        (s.paths.filter fun row => ¬s.HasEvent row.edgeID).filter fun row =>
          ¬(settings.refreshPropagationOnce s now).HasEvent row.edgeID := by
    rw [List.filter_filter]
    refine List.filter_congr fun other _ => Bool.eq_iff_iff.mpr ?_
    simp only [Bool.and_eq_true, decide_eq_true_eq]
    exact (and_iff_left_of_imp fun hnot hhad => hnot (hasEvent_mono hprojected now hhad)).symm
  rw [hsub, List.length_filter_lt_length_iff_exists]
  exact ⟨row, List.mem_filter.mpr ⟨hstored, decide_eq_true hbefore⟩, by simpa using hafter⟩

/-- While a path stays eligible and without event, every unblocked refresh takes one path off
the pending ones. -/
theorem pending_refreshes (hprojected : Projected s.paths) {times : List Int} (hrow : row ∈ s.paths)
    (heligible : ∀ now ∈ times, Eligible settings now row)
    (hunblocked : ∀ before now, before ++ [now] <+: times →
      Unblocked settings (refreshes settings s before) now)
    (hpending : ¬(refreshes settings s times).HasEvent row.edgeID) :
    pending (refreshes settings s times) + times.length ≤ pending s := by
  induction times using List.reverseRecOn with
  | nil => exact le_refl _
  | append_singleton times now ih =>
    rw [refreshes_concat] at hpending ⊢
    have hpaths : (refreshes settings s times).paths = s.paths := paths_refreshes times
    have hprojected' : Projected (refreshes settings s times).paths := hpaths ▸ hprojected
    have hbefore : ¬(refreshes settings s times).HasEvent row.edgeID := fun h =>
      hpending (hasEvent_mono hprojected' now h)
    have hearlier := ih (fun t ht => heligible t (List.mem_append_left _ ht))
      (fun before t hbefore => hunblocked before t (hbefore.trans (List.prefix_append _ _))) hbefore
    have hwanted : Wanted settings (refreshes settings s times) now row :=
      ⟨hpaths ▸ hrow, heligible now (by simp), hbefore⟩
    have hcreates := (creates_iff hprojected' now).mpr
      (hunblocked times now (List.prefix_refl _) ⟨row, hwanted⟩)
    have hfewer := pending_lt hprojected' hcreates
    rw [List.length_append, List.length_singleton]
    omega

end Refresh

/-! ## The main result -/

/-- **Candidates are served** by a refresh exactly where they are not blocked; and where the
refreshes are not, as many of them as there are paths give an event to every path that is
eligible all the while. -/
theorem candidates_served_iff (settings : PropagationSettings) {s : PropagationStore}
    (hprojected : Projected s.paths) :
    (∀ now, ((∃ row, Wanted settings s now row) → Creates settings s now) ↔
      Unblocked settings s now) ∧
    ∀ (times : List Int), s.paths.length ≤ times.length →
      (∀ before now, before ++ [now] <+: times →
        Unblocked settings (refreshes settings s before) now) →
      ∀ row ∈ s.paths, (∀ now ∈ times, Eligible settings now row) →
        (refreshes settings s times).HasEvent row.edgeID := by
  constructor
  · intro now
    exact imp_congr_right fun _ => creates_iff hprojected now
  · intro times hlength hunblocked row hrow heligible
    by_contra hpending
    have hfewer := pending_refreshes hprojected hrow heligible hunblocked hpending
    have hstill : 0 < pending (refreshes settings s times) := by
      refine List.countP_pos_iff.mpr ⟨row, ?_, decide_eq_true hpending⟩
      rw [paths_refreshes]
      exact hrow
    have hall : pending s ≤ s.paths.length := List.countP_le_length
    omega

/-! ## Blocked and unblocked windows -/

theorem unblocked_of_length {settings : PropagationSettings} {s : PropagationStore}
    (hfew : s.paths.length < 40) (now : Int) : Unblocked settings s now := by
  rintro ⟨row, hwanted⟩
  refine ⟨row, hwanted, ?_⟩
  have hall : (settings.candidates s now).length ≤ s.paths.length :=
    length_selectRows_le none _ s.paths
  exact (List.length_filter_le ..).trans_lt (hall.trans_lt hfew)

/-- A path of 100 km between two places. -/
def longPath (edgeID heardAt : Int) (region : String) : MeasuredRow :=
  { edgeID, observationID := edgeID, mappable := true, heardAt, iata := region, region
    payloadTypeName := "ADVERT", messageSender := "", messageText := "", hopCount := 1
    segmentCount := 1, routeIDs := ["r"], endpointLabels := ["A", "B"]
    segments :=
      [{ routeID := "r"
         source :=
           { nodeID := "a", label := "A", lat := .fin 45, lng := .fin (-75), pathHash3 := "" }
         target :=
           { nodeID := "b", label := "B", lat := .fin 45, lng := .fin (-74), pathHash3 := "" }
         distanceKM := .fin 100 }]
    distanceKM := .fin 100 }

/-- Only Ottawa is public. -/
def ottawaOnly : PropagationSettings :=
  { minDistanceKM := .fin 75, publicCache := some (newPublicIATAFilter ["YOW"]) }

/-- A path of Ottawa, and newer ones of Toronto. -/
def withNewer (n : Nat) : PropagationStore :=
  { paths := longPath 1 1760000001000 "YOW" ::
      (List.range n).map fun (i : Nat) => longPath (i + 2) (1760000002000 + i) "YYZ"
    events := []
    lastEventID := 0 }

/-- Three refreshes, a quarter of an hour apart. -/
def quarterHours : List Int := [1760000005000, 1760000905000, 1760001805000]

theorem two_newer_served : (refreshes ottawaOnly (withNewer 2) quarterHours).HasEvent 1 := by
  have hprojected : Projected (withNewer 2).paths :=
    { nodup := by decide +kernel, positive := by decide +kernel, segments := by decide +kernel }
  refine (candidates_served_iff ottawaOnly hprojected).2 quarterHours (by decide +kernel)
    (fun before now _ => unblocked_of_length ?_ now) (longPath 1 1760000001000 "YOW")
    List.mem_cons_self ?_
  · rw [paths_refreshes]
    decide +kernel
  · intro now hnow
    simp only [quarterHours, List.mem_cons, List.not_mem_nil, or_false] at hnow
    rcases hnow with rfl | rfl | rfl <;> exact
      { mappable := rfl, since := by decide +kernel, upTo := by decide +kernel
        distance := by decide +kernel, allowed := by decide +kernel, heardAt := by decide +kernel }

/-- Forty newer paths of an excluded region keep an allowed path from its event. -/
theorem forty_newer_starve :
    ¬∀ (settings : PropagationSettings) (s : PropagationStore), Projected s.paths →
      ∀ now, (∃ row, Wanted settings s now row) → Creates settings s now := by
  intro hall
  have hprojected : Projected (withNewer 40).paths :=
    { nodup := by decide +kernel, positive := by decide +kernel, segments := by decide +kernel }
  have hwanted : Wanted ottawaOnly (withNewer 40) 1760000005000 (longPath 1 1760000001000 "YOW") :=
    { stored := List.mem_cons_self
      eligible :=
        { mappable := rfl, since := by decide +kernel, upTo := by decide +kernel
          distance := by decide +kernel, allowed := by decide +kernel
          heardAt := by decide +kernel }
      pending := by decide +kernel }
  obtain ⟨edgeID, hafter, -⟩ := hall _ _ hprojected 1760000005000 ⟨_, hwanted⟩
  have hnone : (ottawaOnly.refreshPropagationOnce (withNewer 40) 1760000005000).events = [] := by
    decide +kernel
  obtain ⟨event, hevent, -⟩ := hafter
  rw [hnone] at hevent
  cases hevent

end CartoLive.Theorems.PropagationProgress
