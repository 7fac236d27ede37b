import CartoLive.Lib.Holding
import CartoLive.Web.PacketsPanel

/-!
# The button for older packets

However refreshes, requests for older packets, their pages and their failures interleave, the
panel waits for a request for older packets that is under way. One that a refresh overtakes is
never forgotten: the panel waits for it for ever.

## Main results

* `overtaken_request_blocks`: behind an overtaken request no older packets are asked for.
* `loadingMore_iff_pending`: without one, the panel waits only for requests under way.
-/

namespace CartoLive.Theorems.PanelPaging

open CartoLive.Lib CartoLive.Live CartoLive.Web CartoLive.Web.PacketsPanel

variable {p p' : Panel}

/-! ## What the panel waits for -/

/-- A request, as far as the panel waits for it. -/
structure Look where
  older : Bool
  settled : Bool
  generation : ℕ
  filterGeneration : ℕ

def look (r : PanelRequest) : Look :=
  { older := r.older, settled := r.settled, generation := r.generation
    filterGeneration := r.filterGeneration }

/-- What the panel waits for. -/
structure Wait where
  looks : List Look
  generation : ℕ
  filterGeneration : ℕ
  loadingMore : Bool
  mounted : Bool

def waitOf (p : Panel) : Wait :=
  { looks := p.requests.map look, generation := p.requestGeneration
    filterGeneration := p.filterGeneration, loadingMore := p.loadingMore, mounted := p.mounted }

/-- A request for older packets that the panel still listens to. -/
def Look.pending (l : Look) (w : Wait) : Prop :=
  l.older = true ∧ l.settled = false ∧ l.generation = w.generation

/-- `loadingMore` behind the `finally` of a request. -/
def Wait.behind (w : Wait) (l : Look) : Bool :=
  if l.older = true ∧ w.mounted = true ∧ l.generation = w.generation ∧
    l.filterGeneration = w.filterGeneration then false else w.loadingMore

/-- What a step does to the wait, and whether it is a refresh. -/
inductive WaitStep (w w' : Wait) : Bool → Prop
  | same (hlooks : w'.looks = w.looks) (hgeneration : w'.generation = w.generation)
      (hfilters : w'.filterGeneration = w.filterGeneration)
      (hloading : w'.loadingMore = w.loadingMore) (hmounted : w'.mounted = true → w.mounted = true) :
      WaitStep w w' false
  | refresh (h : w' =
      { w with
        looks := w.looks ++
          [⟨false, false, w.generation + 1, w.filterGeneration + 1⟩]
        generation := w.generation + 1
        filterGeneration := w.filterGeneration + 1 }) : WaitStep w w' true
  | older (hloading : w.loadingMore = false)
      (h : w' =
        { w with
          looks := w.looks ++ [⟨true, false, w.generation, w.filterGeneration⟩]
          loadingMore := true }) : WaitStep w w' false
  | settle (id : ℕ) (l : Look) (hl : w.looks[id]? = some l) (hsettled : l.settled = false)
      (h : w' =
        { w with
          looks := w.looks.set id { l with settled := true }
          loadingMore := w.behind l }) : WaitStep w w' false

theorem map_look_modify {requests : List PanelRequest} (id : ℕ) {f : PanelRequest → PanelRequest}
    (hf : ∀ r, look (f r) = look r) : (requests.modify id f).map look = requests.map look := by
  refine List.ext_getElem? fun i => ?_
  rw [List.getElem?_map, List.getElem?_map, List.getElem?_modify]
  cases requests[i]? with
  | none => rfl
  | some r =>
    show some (look (if id = i then f r else r)) = some (look r)
    split
    · rw [hf]
    · rfl

theorem waitOf_abort (p : Panel) (id : Option ℕ) : waitOf (p.abort id) = waitOf p := by
  unfold Panel.abort
  split
  · rfl
  · unfold waitOf
    rw [map_look_modify]
    exact fun r => rfl

theorem waitOf_cleanUp (p : Panel) : waitOf p.cleanUp = waitOf p := by
  unfold Panel.cleanUp
  split
  · rfl
  · unfold waitOf Panel.cancel
    dsimp only
    rw [map_look_modify]
    exact fun r => rfl

theorem waitStep_refresh (p : Panel) (now : Int) : WaitStep (waitOf p) (waitOf (p.refresh now)) true := by
  refine .refresh ?_
  rw [← waitOf_abort p p.requestAbort]
  show Wait.mk (List.map look (_ ++ [_])) _ _ _ _ = _
  rw [List.map_append]
  rfl

theorem waitOf_finish (p : Panel) (id : ℕ) (r : PanelRequest) :
    waitOf (p.finish id r) = { waitOf p with loadingMore := (waitOf p).behind (look r) } := by
  unfold Panel.finish
  split
  · rename_i holder
    split
    · rename_i hcurrent
      rw [show (waitOf p).behind (look r) = false from if_pos ⟨holder, hcurrent⟩]
      rfl
    · rename_i hcurrent
      rw [show (waitOf p).behind (look r) = p.loadingMore from if_neg fun hall => hcurrent hall.2]
      rfl
  · rename_i holder
    rw [show (waitOf p).behind (look r) = p.loadingMore from if_neg fun hall => holder hall.1]
    split <;> rfl

/-- A request is settled, behind whatever its `then` or its `catch` does. -/
theorem waitStep_settle {p q : Panel} {id : ℕ} {r r' : PanelRequest} (hr : p.requests[id]? = some r)
    (hsettled : r.settled = false) (hlook : look r' = { look r with settled := true })
    (hq : waitOf q = waitOf (p.setRequest id r')) :
    WaitStep (waitOf p) (waitOf (q.finish id r')) false := by
  refine .settle id (look r) ?_ hsettled ?_
  · show (p.requests.map look)[id]? = _
    rw [List.getElem?_map, hr]
    rfl
  · have hset : waitOf (p.setRequest id r') =
        { waitOf p with looks := (waitOf p).looks.set id { look r with settled := true } } := by
      rw [← hlook]
      show Wait.mk (List.map look (p.requests.set id r')) _ _ _ _ = _
      rw [List.map_set]
      rfl
    rw [waitOf_finish, hq, hset, hlook]
    rfl

theorem waitOf_apply (p : Panel) (r : PanelRequest) (pages : PacketPages) :
    waitOf (p.apply r pages) = waitOf p := by
  unfold Panel.apply
  split <;> rfl

theorem waitOf_fail (p : Panel) (r : PanelRequest) (message : String) :
    waitOf (p.fail r message) = waitOf p := by
  unfold Panel.fail
  split <;> split <;> rfl

/-- The steps that overtake a request. -/
def overtakes : Act → Bool
  | .refilter _ _ _ | .refresh _ => true
  | _ => false

theorem waitStep_of_step {act : Act} (h : p.step act = some p') :
    WaitStep (waitOf p) (waitOf p') (overtakes act) := by
  cases act with
  | refilter filters scopeMs now =>
    simp only [Panel.step] at h
    split at h <;> cases h
    have hstep := waitStep_refresh { p.cleanUp with debouncedFilters := filters, scopeMs } now
    have hclean : waitOf { p.cleanUp with debouncedFilters := filters, scopeMs } = waitOf p :=
      waitOf_cleanUp p
    rw [hclean] at hstep
    unfold Panel.refilter
    dsimp only
    generalize Panel.refresh _ now = refreshed at hstep ⊢
    exact hstep
  | refresh now =>
    simp only [Panel.step] at h
    split at h <;> cases h
    exact waitStep_refresh p now
  | loadOlder =>
    simp only [Panel.step] at h
    split at h <;> cases h
    unfold Panel.loadOlder
    split
    · exact .same rfl rfl rfl rfl id
    · split
      · exact .same rfl rfl rfl rfl id
      · rename_i henabled
        refine .older (Bool.not_eq_true _ ▸ fun hloading => henabled (.inr hloading)) ?_
        rw [← waitOf_abort p p.requestAbort]
        show Wait.mk (List.map look (_ ++ [_])) _ _ _ _ = _
        rw [List.map_append]
        rfl
  | page id response =>
    obtain ⟨r, hr, h⟩ := Option.bind_eq_some_iff.mp h
    split at h <;> cases h
    rename_i hlive
    unfold Panel.page
    dsimp only
    split
    · refine .same ?_ rfl rfl rfl fun hmounted => hmounted
      show List.map look (p.requests.set id _) = p.requests.map look
      obtain ⟨hlt, hget⟩ := List.getElem?_eq_some_iff.mp hr
      have hself : p.requests.set id r = p.requests := by
        rw [← hget]
        exact List.set_getElem_self hlt
      conv_rhs => rw [← hself]
      rw [List.map_set, List.map_set]
      rfl
    · exact waitStep_settle hr hlive.1 rfl (waitOf_apply ..)
  | reject id message =>
    obtain ⟨r, hr, h⟩ := Option.bind_eq_some_iff.mp h
    split at h <;> cases h
    rename_i hsettled
    unfold Panel.reject
    dsimp only
    split
    · exact waitStep_settle hr hsettled rfl rfl
    · exact waitStep_settle hr hsettled rfl (waitOf_fail ..)
  | unmount =>
    simp only [Panel.step] at h
    split at h <;> cases h
    have hwait : waitOf p.unmount = { waitOf p with mounted := false } := by
      unfold Panel.unmount
      rw [waitOf_cleanUp, waitOf_abort]
      rfl
    rw [hwait]
    exact .same rfl rfl rfl rfl fun hfalse => (by cases hfalse)

variable {w w' : Wait} {overtaking : Bool}

/-- The generations of the requests, and what is waited for. -/
structure Dated (w : Wait) : Prop where
  generation : ∀ l ∈ w.looks, l.generation ≤ w.generation
  filters : ∀ l ∈ w.looks, l.generation = w.generation → l.filterGeneration = w.filterGeneration
  waits : ∀ l ∈ w.looks, l.pending w → w.loadingMore = true
  one : ∀ (id id' : ℕ) (l l' : Look), w.looks[id]? = some l → w.looks[id']? = some l' →
    l.pending w → l'.pending w → id = id'

theorem mem_append_singleton {looks : List Look} {new l : Look} (h : l ∈ looks ++ [new]) :
    l ∈ looks ∨ l = new :=
  (List.mem_append.mp h).imp_right List.mem_singleton.mp

theorem WaitStep.dated (hdated : Dated w) (h : WaitStep w w' overtaking) : Dated w' := by
  cases h with
  | same hlooks hgeneration hfilters hloading hmounted =>
    have hpending : ∀ l : Look, l.pending w' ↔ l.pending w := fun l => by
      unfold Look.pending
      rw [hgeneration]
    refine ⟨fun l hl => ?_, fun l hl => ?_, fun l hl hl' => ?_, fun id id' l l' hl hl' h h' => ?_⟩
    · rw [hgeneration]
      exact hdated.generation l (hlooks ▸ hl)
    · rw [hgeneration, hfilters]
      exact hdated.filters l (hlooks ▸ hl)
    · rw [hloading]
      exact hdated.waits l (hlooks ▸ hl) ((hpending l).mp hl')
    · rw [hlooks] at hl hl'
      exact hdated.one id id' l l' hl hl' ((hpending l).mp h) ((hpending l').mp h')
  | refresh h =>
    subst h
    -- No request for older packets is of the new generation.
    have hnone : ∀ l ∈ w.looks ++ [⟨false, false, w.generation + 1, w.filterGeneration + 1⟩],
        ¬ (l.older = true ∧ l.settled = false ∧ l.generation = w.generation + 1) := by
      rintro l hl ⟨holder, -, hgeneration⟩
      rcases mem_append_singleton hl with hold | rfl
      · have hle := hdated.generation l hold
        omega
      · cases holder
    refine ⟨fun l hl => ?_, fun l hl hgeneration => ?_, fun l hl hl' => absurd hl' (hnone l hl),
      fun id id' l l' hl hl' h h' => absurd h (hnone l (List.mem_of_getElem? hl))⟩
    · rcases mem_append_singleton hl with hold | rfl
      · exact Nat.le_succ_of_le (hdated.generation l hold)
      · exact Nat.le_refl _
    · rcases mem_append_singleton hl with hold | rfl
      · have hle := hdated.generation l hold
        change l.generation = w.generation + 1 at hgeneration
        omega
      · rfl
  | older hloading h =>
    subst h
    have hnone : ∀ l ∈ w.looks, ¬ l.pending w := fun l hl hpending => by
      rw [hdated.waits l hl hpending] at hloading
      cases hloading
    have hlast : ∀ (id : ℕ) (l : Look), (w.looks ++ [⟨true, false, w.generation, w.filterGeneration⟩])[id]? =
        some l → l.pending w → id = w.looks.length := by
      intro id l hl hpending
      rcases Nat.lt_trichotomy id w.looks.length with hlt | heq | hgt
      · rw [List.getElem?_append_left hlt] at hl
        exact absurd hpending (hnone l (List.mem_of_getElem? hl))
      · exact heq
      · rw [List.getElem?_eq_none (by rw [List.length_append]; exact hgt)] at hl
        cases hl
    refine ⟨fun l hl => ?_, fun l hl hgeneration => ?_, fun l _ _ => rfl,
      fun id id' l l' hl hl' h h' => (hlast id l hl h).trans (hlast id' l' hl' h').symm⟩
    · rcases mem_append_singleton hl with hold | rfl
      · exact hdated.generation l hold
      · exact Nat.le_refl _
    · rcases mem_append_singleton hl with hold | rfl
      · exact hdated.filters l hold hgeneration
      · rfl
  | settle id l hl hsettled h =>
    subst h
    have hmem := List.mem_of_getElem? hl
    -- What is still pending was pending elsewhere.
    have hpending : ∀ (id' : ℕ) (l' : Look), (w.looks.set id { l with settled := true })[id']? = some l' →
        l'.pending w → id' ≠ id ∧ w.looks[id']? = some l' := by
      intro id' l' hl' hpending
      by_cases hsame : id' = id
      · subst hsame
        rw [List.getElem?_set_self (List.getElem?_eq_some_iff.mp hl).1] at hl'
        cases hl'
        cases hpending.2.1
      · rw [List.getElem?_set_ne (Ne.symm hsame)] at hl'
        exact ⟨hsame, hl'⟩
    have hsub : ∀ l' ∈ w.looks.set id { l with settled := true },
        l' ∈ w.looks ∨ l' = { l with settled := true } := fun l' hl' =>
      List.mem_or_eq_of_mem_set hl'
    refine ⟨fun l' hl' => ?_, fun l' hl' hgeneration => ?_, fun l' hl' hpends => ?_,
      fun id₁ id₂ l₁ l₂ h₁ h₂ hp₁ hp₂ => ?_⟩
    · rcases hsub l' hl' with hold | rfl
      · exact hdated.generation l' hold
      · exact hdated.generation l hmem
    · rcases hsub l' hl' with hold | rfl
      · exact hdated.filters l' hold hgeneration
      · exact hdated.filters l hmem hgeneration
    · obtain ⟨id', hid'⟩ := List.mem_iff_getElem?.mp hl'
      obtain ⟨hne, hold⟩ := hpending id' l' hid' hpends
      have hloading := hdated.waits l' (List.mem_of_getElem? hold) hpends
      show w.behind l = true
      unfold Wait.behind
      rw [if_neg, hloading]
      rintro ⟨holder, -, hgeneration, -⟩
      exact hne (hdated.one id' id l' l hold hl hpends ⟨holder, hsettled, hgeneration⟩)
    · exact hdated.one id₁ id₂ l₁ l₂ (hpending id₁ l₁ h₁ hp₁).2 (hpending id₂ l₂ h₂ hp₂).2 hp₁ hp₂

/-- The panel waits, and only for requests of earlier generations. -/
structure Blocked (n : ℕ) (w : Wait) : Prop where
  loadingMore : w.loadingMore = true
  overtaken : ∀ l ∈ w.looks, l.older = true → l.settled = false → l.generation < w.generation
  count : w.looks.countP Look.older = n

theorem WaitStep.blocked {n : ℕ} (hblocked : Blocked n w) (h : WaitStep w w' overtaking) :
    Blocked n w' := by
  cases h with
  | same hlooks hgeneration hfilters hloading hmounted =>
    refine ⟨hloading.trans hblocked.loadingMore, fun l hl => ?_, hlooks ▸ hblocked.count⟩
    rw [hgeneration]
    exact hblocked.overtaken l (hlooks ▸ hl)
  | refresh h =>
    subst h
    refine ⟨hblocked.loadingMore, fun l hl holder hsettled => ?_, ?_⟩
    · rcases mem_append_singleton hl with hold | rfl
      · exact Nat.lt_succ_of_lt (hblocked.overtaken l hold holder hsettled)
      · cases holder
    · rw [List.countP_append, hblocked.count]
      rfl
  | older hloading h =>
    rw [hblocked.loadingMore] at hloading
    cases hloading
  | settle id l hl hsettled h =>
    subst h
    have hmem := List.mem_of_getElem? hl
    refine ⟨?_, fun l' hl' holder hunsettled => ?_, ?_⟩
    · show w.behind l = true
      unfold Wait.behind
      rw [if_neg, hblocked.loadingMore]
      rintro ⟨holder, -, hgeneration, -⟩
      have hlt := hblocked.overtaken l hmem holder hsettled
      omega
    · rcases List.mem_or_eq_of_mem_set hl' with hold | rfl
      · exact hblocked.overtaken l' hold holder hunsettled
      · cases hunsettled
    · have hcount := countP_set_add Look.older hl { l with settled := true }
      dsimp only at hcount ⊢
      have hkept := hblocked.count
      omega

/-- A request for older packets is under way, and nothing has been asked for since. -/
def Pending (p : Panel) : Prop :=
  ∃ r ∈ p.requests, r.older = true ∧ r.settled = false ∧ r.generation = p.requestGeneration

instance (p : Panel) : Decidable (Pending p) :=
  inferInstanceAs (Decidable (∃ r ∈ p.requests, r.older = true ∧ r.settled = false ∧
    r.generation = p.requestGeneration))

theorem pending_iff : Pending p ↔ ∃ l ∈ (waitOf p).looks, l.pending (waitOf p) := by
  constructor
  · rintro ⟨r, hr, hpending⟩
    exact ⟨look r, List.mem_map_of_mem hr, hpending⟩
  · rintro ⟨l, hl, hpending⟩
    obtain ⟨r, hr, rfl⟩ := List.mem_map.mp hl
    exact ⟨r, hr, hpending⟩

theorem dated_of_reachable (hp : packetsPanel.Reachable p) : Dated (waitOf p) := by
  induction hp with
  | init hi =>
    obtain ⟨filters, scopeMs, rfl⟩ := hi
    exact ⟨fun l hl => (by cases hl), fun l hl => (by cases hl), fun l hl => (by cases hl),
      fun id id' l l' hl => (by cases hl)⟩
  | step _ _ hstep ih => exact (waitStep_of_step hstep).dated ih

/-- **An overtaken request blocks the panel.** A refresh, by the interval, the button or a change
of the filters, while older packets are being asked for: from then on the panel waits for them
whatever happens, and never asks for older packets again. -/
theorem overtaken_request_blocks (hp : packetsPanel.Reachable p) (hpending : Pending p) {act : Act}
    (hact : overtakes act = true) {acts : List Act} {q : Panel}
    (hrun : packetsPanel.run p (act :: acts) = some q) :
    q.loadingMore = true ∧
      q.requests.countP PanelRequest.older = p.requests.countP PanelRequest.older := by
  have hdated := dated_of_reachable hp
  obtain ⟨l, hl, hlpending⟩ := pending_iff.mp hpending
  have hcount : ∀ p : Panel,
      (waitOf p).looks.countP Look.older = p.requests.countP PanelRequest.older := fun p =>
    List.countP_map
  obtain ⟨p₁, hp₁, hrest⟩ := TSys.run_cons_eq_some.mp hrun
  have hstep := waitStep_of_step hp₁
  rw [hact] at hstep
  have hblocked : Blocked (p.requests.countP PanelRequest.older) (waitOf p₁) := by
    cases hstep with
    | refresh h =>
      rw [h]
      refine ⟨hdated.waits l hl hlpending, fun l' hl' holder _ => ?_, ?_⟩
      · rcases mem_append_singleton hl' with hold | rfl
        · exact Nat.lt_succ_of_le (hdated.generation l' hold)
        · cases holder
      · rw [List.countP_append, hcount]
        rfl
  have hend : Blocked (p.requests.countP PanelRequest.older) (waitOf q) :=
    TSys.run_keeps (P := fun p' => Blocked (p.requests.countP PanelRequest.older) (waitOf p'))
      (fun _ _ _ _ hkept hs => (waitStep_of_step hs).blocked hkept) hblocked hrest
  exact ⟨hend.loadingMore, (hcount q).symm.trans hend.count⟩

/-! ### A run -/

def noFilters : PacketFilters :=
  { query := "", iata := "", payload := "", minHops := 0, messageOnly := false }

def sampleRow (id : String) (heardAt : Int) : PublicPacketPath :=
  { id, heardAt, iata := "YOW", region := "YOW", payloadTypeName := "TXT_MSG", messageSender := ""
    messageText := "", hopCount := 1, segmentCount := 1, routeIDs := [], endpointLabels := []
    segments := [] }

def samplePage (row : PublicPacketPath) (nextCursor : String) : PacketsResponse :=
  { packets := [row], window := { fromMs := 0, toMs := 3600000, count := 1 }, nextCursor
    scan := none }

def newerRow : PublicPacketPath := sampleRow "pulse-2" 2000

/-- The panel asks for the newest packets, and then for older ones. -/
def askForOlder : List Act :=
  [.refilter noFilters 3600000 3600000, .page 0 (samplePage newerRow "b2xkZXI"), .loadOlder]

theorem start_init (filters : PacketFilters) (scopeMs : Int) :
    packetsPanel.init (.start filters scopeMs) := ⟨filters, scopeMs, rfl⟩

/-- The interval refreshes while older packets are asked for: the older request rejects, the newest
packets come, and the button stays disabled. -/
theorem overtaken_request_blocks_interval : ∃ p q, packetsPanel.Reachable p ∧
    packetsPanel.run p [.refresh 3660000, .reject 1 "", .page 2 (samplePage newerRow "b2xkZXI"),
      .loadOlder] = some q ∧ q.loading = false ∧ q.loadingMore = true := by
  obtain ⟨p, hp, htest⟩ := TSys.exists_reachable_of_run (M := packetsPanel) askForOlder
    (fun p => decide (Pending p ∧ ((packetsPanel.run p [.refresh 3660000, .reject 1 "",
      .page 2 (samplePage newerRow "b2xkZXI"), .loadOlder]).map Panel.loading = some false)))
    (start_init noFilters 3600000) (by decide +kernel)
  obtain ⟨hpending, hrun⟩ := of_decide_eq_true htest
  obtain ⟨q, hq, hloading⟩ := Option.map_eq_some_iff.mp hrun
  exact ⟨p, q, hp, hq, hloading, (overtaken_request_blocks hp hpending rfl hq).1⟩

/-- Where no request for older packets is overtaken, the panel waits for one that is under way. -/
theorem loadingMore_iff_pending
    (hp : packetsPanel.ReachOn (fun p act => overtakes act = true → ¬ Pending p) p)
    (hmounted : p.mounted = true) : p.loadingMore = true ↔ Pending p := by
  have hdated := dated_of_reachable hp.reachable
  constructor
  swap
  · intro hpending
    obtain ⟨l, hl, hlpending⟩ := pending_iff.mp hpending
    exact hdated.waits l hl hlpending
  clear hdated
  induction hp with
  | init hi =>
    obtain ⟨filters, scopeMs, rfl⟩ := hi
    exact fun hfalse => (by cases hfalse)
  | @step p p' act hprev hguard hstep ih =>
    intro hloading
    have hdated := dated_of_reachable hprev.reachable
    have hwait := waitStep_of_step hstep
    rw [pending_iff] at ih hguard ⊢
    change (waitOf p').loadingMore = true at hloading
    change (waitOf p').mounted = true at hmounted
    change (waitOf p).mounted = true → (waitOf p).loadingMore = true → _ at ih
    generalize waitOf p = w at hdated hwait ih hguard
    generalize waitOf p' = w' at hwait hloading hmounted ⊢
    generalize overtakes act = overtaking at hwait hguard
    cases hwait with
    | same hlooks hgeneration hfilters hkept hmounts =>
      obtain ⟨l, hl, hpending⟩ := ih (hmounts hmounted) (hkept ▸ hloading)
      refine ⟨l, hlooks ▸ hl, hpending.1, hpending.2.1, ?_⟩
      rw [hgeneration]
      exact hpending.2.2
    | refresh h =>
      subst h
      exact absurd (ih hmounted hloading) (hguard rfl)
    | older hidle h =>
      subst h
      exact ⟨_, List.mem_append_right _ List.mem_cons_self, rfl, rfl, rfl⟩
    | settle id l hl hsettled h =>
      subst h
      change w.behind l = true at hloading
      unfold Wait.behind at hloading
      split at hloading
      · cases hloading
      · rename_i hother
        obtain ⟨l', hl', hpending⟩ := ih hmounted hloading
        obtain ⟨id', hid'⟩ := List.mem_iff_getElem?.mp hl'
        have hne : id ≠ id' := by
          rintro rfl
          rw [hl] at hid'
          cases hid'
          exact hother ⟨hpending.1, hmounted, hpending.2.2,
            hdated.filters l hl' hpending.2.2⟩
        refine ⟨l', List.mem_of_getElem? (i := id') ?_, hpending⟩
        show (w.looks.set id _)[id']? = some l'
        rw [List.getElem?_set_ne hne]
        exact hid'

theorem loadingMore_iff_pending_older : ∃ p : Panel, p.packets = [newerRow] ∧
    (p.loadingMore = true ↔ Pending p) := by
  obtain ⟨p, hp, htest⟩ := TSys.exists_reachOn_of_runOn (M := packetsPanel)
    (fun p act => overtakes act = true → ¬ Pending p) askForOlder
    (fun p => decide (p.packets = [newerRow] ∧ p.mounted = true))
    (start_init noFilters 3600000) (by decide +kernel)
  obtain ⟨hrows, hmounted⟩ := of_decide_eq_true htest
  exact ⟨p, hrows, loadingMore_iff_pending hp hmounted⟩

end CartoLive.Theorems.PanelPaging
