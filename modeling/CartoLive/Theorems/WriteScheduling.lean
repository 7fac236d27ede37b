import Mathlib.Data.List.TakeWhile
import CartoLive.App.WriteCoordinator

/-!
# Scheduling of coordinated writes

What the run loop promises for any arrivals: each lane is served in the order
of collection, background work only when no live request is collected, the live
lanes alternate while both wait, and a live request with `k` requests of its
lane ahead is preceded by at most `2 * k + 1` picks (`schedule_fair`). A pick
counts whether or not its function is then called.

The bound is an induction over the loop with the number of picks that may still
come before a request as its measure (`picksLeft`): `nextLive` decides whether
the other lane goes first.
-/

namespace CartoLive.Theorems.WriteScheduling

open CartoLive.Lib CartoLive.App

/-! ## Reading the history -/

/-- The selections of the loop. -/
def picks (history : List WriteEvent) : List Pick :=
  history.filterMap fun
    | .picked pick => some pick
    | _ => none

/-- The requests of a lane in the order the loop received them. -/
def collectedIn (lane : WriteLane) (history : List WriteEvent) : List Nat :=
  history.filterMap fun
    | .collected id lane' => if lane' = lane then some id else none
    | _ => none

/-- The requests of a lane in the order the loop picked them. -/
def pickedIn (lane : WriteLane) (history : List WriteEvent) : List Nat :=
  ((picks history).filter fun pick => pick.lane = lane).map Pick.id

/-- The requests whose function was called, in that order. -/
def startedIds (history : List WriteEvent) : List Nat :=
  history.filterMap fun
    | .started id => some id
    | _ => none

/-- The requests of a lane that are collected and not picked. -/
def waitingIn (lane : WriteLane) (history : List WriteEvent) : Nat :=
  (collectedIn lane history).length - (pickedIn lane history).length

/-- The picks before that of a request. -/
def picksBefore (id : Nat) (later : List Pick) : Nat :=
  (later.takeWhile fun pick => pick.id ≠ id).length

/-- The live lane that is not the given one. -/
def otherLive (lane : WriteLane) : WriteLane :=
  if lane = .primary then .liveCore else .primary

/-- The live lane whose turn it is after some picks. -/
def turnAfter (earlier : List Pick) : WriteLane :=
  match (earlier.filter fun pick => pick.lane ≠ .background).getLast? with
  | none => .primary
  | some pick => otherLive pick.lane

/-- Both live lanes waited at a pick. -/
def Pick.Contended (pick : Pick) : Prop := pick.hasPrimary = true ∧ pick.hasLive = true

instance (pick : Pick) : Decidable (Pick.Contended pick) := by
  unfold Pick.Contended
  infer_instance

@[simp] theorem picks_append (h h' : List WriteEvent) : picks (h ++ h') = picks h ++ picks h' :=
  List.filterMap_append

@[simp] theorem collectedIn_append (lane : WriteLane) (h h' : List WriteEvent) :
    collectedIn lane (h ++ h') = collectedIn lane h ++ collectedIn lane h' :=
  List.filterMap_append

@[simp] theorem startedIds_append (h h' : List WriteEvent) :
    startedIds (h ++ h') = startedIds h ++ startedIds h' :=
  List.filterMap_append

/-! ## What a step does to the queues -/

/-- An event that is about no queue and starts nothing. -/
def WriteEvent.Quiet : WriteEvent → Prop
  | .collected _ _ | .picked _ | .started _ => False
  | _ => True

variable {s s' : Coordinator}

inductive SchedStep (s s' : Coordinator) : Prop
  | quiet (events : List WriteEvent) (hevents : ∀ e ∈ events, WriteEvent.Quiet e)
      (hqueues : s'.queues = s.queues) (hnext : s'.nextLive = s.nextLive)
      (hloop : ∀ id, s'.loop = .picked id → s.loop = .picked id)
      (hhistory : s'.history = s.history ++ events)
  | collect (id : Nat) (lane : WriteLane) (hqueues : s'.queues = s.queues.push lane id)
      (hnext : s'.nextLive = s.nextLive) (hloop : s'.loop = .draining)
      (hhistory : s'.history = s.history ++ [.collected id lane])
  | pick (id : Nat) (rest : List Nat)
      (hhead : s.queues.get (selectLane s.queues s.nextLive).1 = id :: rest)
      (hqueues : s'.queues = s.queues.set (selectLane s.queues s.nextLive).1 rest)
      (hnext : s'.nextLive = (selectLane s.queues s.nextLive).2)
      (hloop : s'.loop = .picked id)
      (hhistory : s'.history = s.history ++ [.picked
        { id, lane := (selectLane s.queues s.nextLive).1, hasPrimary := s.queues.primary ≠ []
          hasLive := s.queues.liveCore ≠ [] }])
  | start (id : Nat) (hqueues : s'.queues = s.queues) (hnext : s'.nextLive = s.nextLive)
      (hpicked : s.loop = .picked id) (hloop : s'.loop = .running id)
      (hhistory : s'.history = s.history ++ [.started id])

/-- A step that leaves the loop and the queues alone. -/
theorem schedStep_aside (events : List WriteEvent) (hevents : ∀ e ∈ events, WriteEvent.Quiet e)
    (hqueues : s'.queues = s.queues) (hnext : s'.nextLive = s.nextLive)
    (hloop : s'.loop = s.loop) (hhistory : s'.history = s.history ++ events) : SchedStep s s' :=
  .quiet events hevents hqueues hnext (fun _ h => hloop ▸ h) hhistory

theorem schedStep_collect (h : s.collect = some s') : SchedStep s s' := by
  unfold Coordinator.collect at h
  split at h
  · cases h
  · obtain ⟨call, -, rfl⟩ := Option.map_eq_some_iff.mp h
    exact .collect _ call.lane rfl rfl rfl rfl

theorem quiet_returned (id : Nat) (result : WriteResult) :
    ∀ e ∈ [WriteEvent.returned id result], WriteEvent.Quiet e := by
  simp [WriteEvent.Quiet]

theorem schedStep_of_step {act : WriteAct} (h : writeStep s act = some s') : SchedStep s s' := by
  cases act with
  | call lane hasFn =>
    cases h
    cases hasFn with
    | false =>
      exact schedStep_aside [.called _ false, .returned _ _] (by simp [WriteEvent.Quiet])
        rfl rfl rfl (List.append_assoc _ _ _)
    | true =>
      exact schedStep_aside [.called _ true] (by simp [WriteEvent.Quiet]) rfl rfl rfl rfl
  | cancel id err =>
    obtain ⟨call, -, h⟩ := Option.bind_eq_some_iff.mp h
    split at h <;> cases h
    exact schedStep_aside [.cancelled id err] (by simp [WriteEvent.Quiet]) rfl rfl rfl rfl
  | close =>
    cases h
    exact schedStep_aside [.closed] (by simp [WriteEvent.Quiet]) rfl rfl rfl rfl
  | offer id =>
    obtain ⟨call, -, h⟩ := Option.bind_eq_some_iff.mp h
    split at h <;> cases h
    exact schedStep_aside [] (by simp) rfl rfl rfl (List.append_nil _).symm
  | giveUp id =>
    obtain ⟨call, -, h⟩ := Option.bind_eq_some_iff.mp h
    split at h
    · split at h <;> cases h
      exact schedStep_aside _ (quiet_returned _ _) rfl rfl rfl rfl
    · cases h
  | giveUpClosed id =>
    obtain ⟨call, -, h⟩ := Option.bind_eq_some_iff.mp h
    split at h <;> cases h
    exact schedStep_aside _ (quiet_returned _ _) rfl rfl rfl rfl
  | takeResult id =>
    obtain ⟨call, -, h⟩ := Option.bind_eq_some_iff.mp h
    split at h
    · split at h <;> cases h
      exact schedStep_aside _ (quiet_returned _ _) rfl rfl rfl rfl
    · cases h
  | receive =>
    simp only [writeStep] at h
    split at h
    · exact schedStep_collect h
    · cases h
  | quit =>
    simp only [writeStep] at h
    split at h <;> cases h
    exact .quiet [] (by simp) rfl rfl (by simp) (List.append_nil _).symm
  | drain =>
    simp only [writeStep] at h
    split at h
    · exact schedStep_collect h
    · cases h
  | pick =>
    simp only [writeStep] at h
    split at h
    · split at h
      · cases h
      · rename_i id rest hhead
        cases h
        exact .pick id rest hhead rfl rfl rfl rfl
    · cases h
  | check =>
    simp only [writeStep] at h
    split at h
    · rename_i id hloop
      obtain ⟨call, -, rfl⟩ := Option.map_eq_some_iff.mp h
      split
      · exact .quiet [] (by simp) rfl rfl (by simp) (List.append_nil _).symm
      · exact .start id rfl rfl hloop rfl rfl
    · cases h
  | fnReturns result =>
    simp only [writeStep] at h
    split at h <;> cases h
    exact .quiet [.finished _ result] (by simp [WriteEvent.Quiet]) rfl rfl (by simp) rfl
  | deliver =>
    simp only [writeStep] at h
    split at h
    · obtain ⟨call, -, rfl⟩ := Option.map_eq_some_iff.mp h
      refine .quiet [] (by simp) rfl rfl (fun id hid => ?_) (List.append_nil _).symm
      dsimp only [RunLoop.next] at hid
      split at hid <;> cases hid
    · cases h

/-! ## The selection -/

theorem otherLive_ne (lane : WriteLane) : otherLive lane ≠ .background := by
  unfold otherLive
  split <;> simp

/-- Background work is selected only when no live request waits. -/
theorem selectLane_background {q : Queues} {next : WriteLane} (hnext : next ≠ .background)
    (h : (selectLane q next).1 = .background) : q.primary = [] ∧ q.liveCore = [] := by
  unfold selectLane at h
  dsimp only at h
  split at h
  · exact absurd h hnext
  · split at h
    · cases h
    · split at h
      · cases h
      · rename_i hprimary hlive
        exact ⟨not_not.mp hprimary, not_not.mp hlive⟩

/-- While both live lanes wait the next one is selected. -/
theorem selectLane_contended {q : Queues} {next : WriteLane} (hprimary : q.primary ≠ [])
    (hlive : q.liveCore ≠ []) : (selectLane q next).1 = next := by
  unfold selectLane
  dsimp only
  rw [if_pos ⟨hprimary, hlive⟩]

/-- After a live pick it is the other lane's turn. -/
theorem selectLane_turn {q : Queues} {next : WriteLane} (hnext : next ≠ .background) :
    (selectLane q next).2 =
      if (selectLane q next).1 = .background then next else otherLive (selectLane q next).1 := by
  unfold selectLane otherLive
  dsimp only
  split
  · cases next with
    | background => exact absurd rfl hnext
    | primary => rfl
    | liveCore => rfl
  · split
    · rfl
    · split <;> rfl

/-- The picks that may still come before the request at place `k` of a live
lane's queue. -/
def picksLeft (lane : WriteLane) (k : Nat) (next : WriteLane) : Nat :=
  2 * k + if next = lane then 0 else 1

/-- A pick from another lane brings the turn of a waiting live lane. -/
theorem picksLeft_other {q : Queues} {next lane : WriteLane} {k : Nat} (hlane : lane ≠ .background)
    (hnext : next ≠ .background) (hwaits : q.get lane ≠ []) (hpick : (selectLane q next).1 ≠ lane) :
    picksLeft lane k (selectLane q next).2 + 1 ≤ picksLeft lane k next := by
  have hfree : (selectLane q next).1 = next ∧ (selectLane q next).2 = lane ∧ next ≠ lane := by
    unfold selectLane at hpick ⊢
    dsimp only at hpick ⊢
    cases lane with
    | background => exact absurd rfl hlane
    | primary =>
      have hprimary : q.primary ≠ [] := hwaits
      split at hpick
      · rename_i hboth
        rw [if_pos hboth]
        cases next <;> simp_all
      · exact absurd rfl hpick
    | liveCore =>
      have hlive : q.liveCore ≠ [] := hwaits
      split at hpick
      · rename_i hboth
        rw [if_pos hboth]
        cases next <;> simp_all
      · rename_i hboth
        have hprimary : ¬ q.primary ≠ [] := fun h => hboth ⟨h, hlive⟩
        rw [if_neg hprimary] at hpick
        exact absurd rfl hpick
  obtain ⟨-, hturn, hne⟩ := hfree
  unfold picksLeft
  rw [if_pos hturn, if_neg hne]

/-- A pick from its own lane brings a request one place forward. -/
theorem picksLeft_own {q : Queues} {next : WriteLane} {k : Nat} :
    picksLeft (selectLane q next).1 k (selectLane q next).2 + 1 ≤
      picksLeft (selectLane q next).1 (k + 1) next := by
  unfold picksLeft
  split <;> split <;> omega

/-! ## The invariant -/

/-- A collected live request has been picked in time, or waits with few enough
picks behind it. -/
def WaitsInTurn (history : List WriteEvent) (q : Queues) (next : WriteLane) : Prop :=
  ∀ before id lane after, history = before ++ .collected id lane :: after →
    lane ≠ .background →
      ((∃ pick ∈ picks after, pick.id = id) ∧
          picksBefore id (picks after) ≤ 2 * waitingIn lane before + 1) ∨
        (∀ pick ∈ picks after, pick.id ≠ id) ∧ ∃ k, (q.get lane)[k]? = some id ∧
          (picks after).length + picksLeft lane k next ≤ 2 * waitingIn lane before + 1

structure SchedInv (s : Coordinator) : Prop where
  fifo : ∀ lane, collectedIn lane s.history = pickedIn lane s.history ++ s.queues.get lane
  turn : s.nextLive = turnAfter (picks s.history)
  background : ∀ pick ∈ picks s.history, pick.lane = .background →
    pick.hasPrimary = false ∧ pick.hasLive = false
  alternates : Along (fun earlier pick => Pick.Contended pick → pick.lane = turnAfter earlier)
    (picks s.history)
  starts : (startedIds s.history).Sublist ((picks s.history).map Pick.id)
  startable : ∀ id, s.loop = .picked id → ∃ init,
    (picks s.history).map Pick.id = init ++ [id] ∧ (startedIds s.history).Sublist init
  waits : WaitsInTurn s.history s.queues s.nextLive

theorem turnAfter_ne (earlier : List Pick) : turnAfter earlier ≠ .background := by
  unfold turnAfter
  split
  · simp
  · exact otherLive_ne _

theorem turnAfter_concat (earlier : List Pick) (pick : Pick) :
    turnAfter (earlier ++ [pick]) =
      if pick.lane = .background then turnAfter earlier else otherLive pick.lane := by
  unfold turnAfter
  by_cases hlane : pick.lane = .background
  · have hnone : ([pick].filter fun pick => pick.lane ≠ .background) = [] := by simp [hlane]
    rw [if_pos hlane, List.filter_append, hnone, List.append_nil]
  · have hkept : ([pick].filter fun pick => pick.lane ≠ .background) = [pick] := by simp [hlane]
    rw [if_neg hlane, List.filter_append, hkept, List.getLast?_concat]

/-! ## The steps -/

theorem picks_quiet {events : List WriteEvent} (h : ∀ e ∈ events, WriteEvent.Quiet e) :
    picks events = [] := by
  refine List.filterMap_eq_nil_iff.mpr fun e he => ?_
  have := h e he
  cases e <;> simp_all [WriteEvent.Quiet]

theorem collectedIn_quiet {events : List WriteEvent} (h : ∀ e ∈ events, WriteEvent.Quiet e)
    (lane : WriteLane) : collectedIn lane events = [] := by
  refine List.filterMap_eq_nil_iff.mpr fun e he => ?_
  have := h e he
  cases e <;> simp_all [WriteEvent.Quiet]

theorem startedIds_quiet {events : List WriteEvent} (h : ∀ e ∈ events, WriteEvent.Quiet e) :
    startedIds events = [] := by
  refine List.filterMap_eq_nil_iff.mpr fun e he => ?_
  have := h e he
  cases e <;> simp_all [WriteEvent.Quiet]

/-- Events that collect and pick nothing change no waiting. -/
theorem WaitsInTurn.other {history : List WriteEvent} {q : Queues} {next : WriteLane}
    (h : WaitsInTurn history q next) {e : WriteEvent} (hpicks : picks [e] = [])
    (hcollected : ∀ id lane, e ≠ .collected id lane) : WaitsInTurn (history ++ [e]) q next := by
  intro before id lane after hsplit hlane
  rcases split_concat hsplit with ⟨after', hsplit', rfl⟩ | ⟨-, heq, -⟩
  · rw [picks_append, hpicks, List.append_nil]
    exact h before id lane after' hsplit' hlane
  · exact absurd heq.symm (hcollected id lane)

theorem WaitsInTurn.quiet {q : Queues} {next : WriteLane} {events : List WriteEvent}
    (hevents : ∀ e ∈ events, WriteEvent.Quiet e) :
    ∀ {history : List WriteEvent}, WaitsInTurn history q next →
      WaitsInTurn (history ++ events) q next := by
  induction events with
  | nil => exact fun h => by rwa [List.append_nil]
  | cons e events ih =>
    intro history h
    have he := hevents e (by simp)
    rw [List.append_cons]
    refine ih (fun e' he' => hevents e' (by simp [he'])) (h.other ?_ ?_)
    · exact picks_quiet fun e' he' => hevents e' (by simp [List.mem_singleton.mp he'])
    · rintro id lane rfl
      exact he

/-- A request joins its queue behind the collected ones of its lane. -/
theorem WaitsInTurn.collect {history : List WriteEvent} {q : Queues} {next : WriteLane}
    (h : WaitsInTurn history q next) (id : Nat) (lane : WriteLane)
    (hfifo : collectedIn lane history = pickedIn lane history ++ q.get lane) :
    WaitsInTurn (history ++ [.collected id lane]) (q.push lane id) next := by
  intro before id' lane' after hsplit hlane
  rcases split_concat hsplit with ⟨after', hsplit', rfl⟩ | ⟨rfl, heq, rfl⟩
  · have hpicks : picks (after' ++ [.collected id lane]) = picks after' := by
      rw [picks_append]
      exact List.append_nil _
    rw [hpicks]
    refine (h before id' lane' after' hsplit' hlane).imp_right fun ⟨hnot, k, hk, hle⟩ =>
      ⟨hnot, k, ?_, hle⟩
    -- the queues only grow behind the request
    by_cases hsame : lane' = lane
    · subst hsame
      rw [Queues.push, Queues.get_set_same, List.getElem?_append_left]
      · exact hk
      · exact (List.getElem?_eq_some_iff.mp hk).1
    · rw [Queues.push, Queues.get_set_ne _ _ hsame]
      exact hk
  · cases heq
    have hahead : waitingIn lane before = (q.get lane).length := by
      rw [waitingIn, hfifo, List.length_append]
      omega
    refine Or.inr ⟨by simp [picks], (q.get lane).length, ?_, ?_⟩
    · rw [Queues.push, Queues.get_set_same, List.getElem?_concat_length]
    · rw [hahead]
      show 0 + picksLeft lane _ next ≤ _
      unfold picksLeft
      split <;> omega

/-- Picks after that of a request do not count. -/
theorem picksBefore_append {id : Nat} {earlier later : List Pick} {pick : Pick}
    (hp : pick ∈ earlier) (hid : pick.id = id) :
    picksBefore id (earlier ++ later) = picksBefore id earlier := by
  have hstop : (earlier.takeWhile fun pick => pick.id ≠ id).length ≠ earlier.length := by
    intro hlength
    have hall := (List.takeWhile_prefix _).eq_of_length hlength
    have := List.takeWhile_eq_self_iff.mp hall pick hp
    simp [hid] at this
  rw [picksBefore, List.takeWhile_append, if_neg hstop]
  rfl

/-- A request is picked: its waiting ends, and the others have one pick less
before them. -/
theorem WaitsInTurn.pick {history : List WriteEvent} {q : Queues} {next : WriteLane}
    (h : WaitsInTurn history q next) (hnext : next ≠ .background) {pick : Pick} {rest : List Nat}
    (hlane : pick.lane = (selectLane q next).1) (hhead : q.get pick.lane = pick.id :: rest) :
    WaitsInTurn (history ++ [.picked pick]) (q.set pick.lane rest) (selectLane q next).2 := by
  intro before id lane after hsplit hlive
  rcases split_concat hsplit with ⟨after', hsplit', rfl⟩ | ⟨-, heq, -⟩
  · have hpicks : picks (after' ++ [.picked pick]) = picks after' ++ [pick] := picks_append _ _
    rw [hpicks]
    rcases h before id lane after' hsplit' hlive with ⟨⟨p, hp, hid⟩, hle⟩ | ⟨hnot, k, hk, hle⟩
    · -- picked before
      exact Or.inl ⟨⟨p, List.mem_append_left _ hp, hid⟩, picksBefore_append hp hid ▸ hle⟩
    · have hall : (picks after').takeWhile (fun pick => pick.id ≠ id) = picks after' :=
        List.takeWhile_eq_self_iff.mpr fun p hp => decide_eq_true (hnot p hp)
      by_cases hid : pick.id = id
      · -- picked now
        refine Or.inl ⟨⟨pick, by simp, hid⟩, ?_⟩
        have hstop : (picks after' ++ [pick]).takeWhile (fun pick => pick.id ≠ id) =
            picks after' := by
          rw [List.takeWhile_append, hall, if_pos rfl]
          simp [hid]
        rw [picksBefore, hstop]
        omega
      · refine Or.inr ⟨fun p hp => ?_, ?_⟩
        · rcases List.mem_append.mp hp with hp | hp
          · exact hnot p hp
          · rwa [List.mem_singleton.mp hp]
        · rw [List.length_append, List.length_singleton]
          by_cases hsame : lane = pick.lane
          · subst hsame
            cases k with
            | zero =>
              rw [hhead] at hk
              exact absurd (Option.some.inj hk) hid
            | succ k =>
              refine ⟨k, ?_, ?_⟩
              · rw [Queues.get_set_same]
                rw [hhead] at hk
                exact hk
              · have hless : picksLeft pick.lane k (selectLane q next).2 + 1 ≤
                    picksLeft pick.lane (k + 1) next := by
                  rw [hlane]
                  exact picksLeft_own
                omega
          · refine ⟨k, ?_, ?_⟩
            · rw [Queues.get_set_ne _ _ hsame]
              exact hk
            · have hwaits : q.get lane ≠ [] := by
                intro hnil
                rw [hnil] at hk
                cases hk
              have hless : picksLeft lane k (selectLane q next).2 + 1 ≤ picksLeft lane k next :=
                picksLeft_other hlive hnext hwaits fun heq => hsame (heq.symm.trans hlane.symm)
              omega
  · cases heq

theorem SchedInv.quiet (h : SchedInv s) {events : List WriteEvent}
    (hevents : ∀ e ∈ events, WriteEvent.Quiet e) (hqueues : s'.queues = s.queues)
    (hnext : s'.nextLive = s.nextLive) (hloop : ∀ id, s'.loop = .picked id → s.loop = .picked id)
    (hhistory : s'.history = s.history ++ events) : SchedInv s' := by
  have hpicks : picks s'.history = picks s.history := by
    rw [hhistory, picks_append, picks_quiet hevents, List.append_nil]
  have hstarted : startedIds s'.history = startedIds s.history := by
    rw [hhistory, startedIds_append, startedIds_quiet hevents, List.append_nil]
  exact
    { fifo := fun lane => by
        rw [pickedIn, hpicks, hqueues, hhistory, collectedIn_append,
          collectedIn_quiet hevents, List.append_nil]
        exact h.fifo lane
      turn := by rw [hnext, hpicks, h.turn]
      background := by rw [hpicks]; exact h.background
      alternates := by rw [hpicks]; exact h.alternates
      starts := by rw [hstarted, hpicks]; exact h.starts
      startable := fun id hid => by
        rw [hstarted, hpicks]
        exact h.startable id (hloop id hid)
      waits := by
        rw [hhistory, hqueues, hnext]
        exact WaitsInTurn.quiet hevents h.waits }

theorem SchedInv.collect (h : SchedInv s) {id : Nat} {lane : WriteLane}
    (hqueues : s'.queues = s.queues.push lane id) (hnext : s'.nextLive = s.nextLive)
    (hloop : s'.loop = .draining) (hhistory : s'.history = s.history ++ [.collected id lane]) :
    SchedInv s' := by
  have hpicks : picks s'.history = picks s.history := by
    rw [hhistory, picks_append]
    exact List.append_nil _
  have hstarted : startedIds s'.history = startedIds s.history := by
    rw [hhistory, startedIds_append]
    exact List.append_nil _
  exact
    { fifo := fun lane' => by
        rw [pickedIn, hpicks, hqueues, hhistory, collectedIn_append, h.fifo lane', ← pickedIn]
        by_cases hsame : lane' = lane
        · subst hsame
          rw [Queues.push, Queues.get_set_same, ← List.append_assoc]
          simp [collectedIn]
        · rw [Queues.push, Queues.get_set_ne _ _ hsame]
          simp [collectedIn, Ne.symm hsame]
      turn := by rw [hnext, hpicks, h.turn]
      background := by rw [hpicks]; exact h.background
      alternates := by rw [hpicks]; exact h.alternates
      starts := by rw [hstarted, hpicks]; exact h.starts
      startable := fun id' hid => by
        rw [hloop] at hid
        cases hid
      waits := by
        rw [hhistory, hqueues, hnext]
        exact h.waits.collect id lane (h.fifo lane) }

theorem SchedInv.pick (h : SchedInv s) {pick : Pick} {rest : List Nat}
    (hlane : pick.lane = (selectLane s.queues s.nextLive).1)
    (hprimary : pick.hasPrimary = decide (s.queues.primary ≠ []))
    (hlive : pick.hasLive = decide (s.queues.liveCore ≠ []))
    (hhead : s.queues.get pick.lane = pick.id :: rest)
    (hqueues : s'.queues = s.queues.set pick.lane rest)
    (hnext : s'.nextLive = (selectLane s.queues s.nextLive).2) (hloop : s'.loop = .picked pick.id)
    (hhistory : s'.history = s.history ++ [.picked pick]) : SchedInv s' := by
  have hpicks : picks s'.history = picks s.history ++ [pick] := by
    rw [hhistory, picks_append]
    rfl
  have hstarted : startedIds s'.history = startedIds s.history := by
    rw [hhistory, startedIds_append]
    exact List.append_nil _
  have hturn : s.nextLive ≠ .background := h.turn ▸ turnAfter_ne _
  exact
    { fifo := fun lane => by
        have hcollected : collectedIn lane s'.history = collectedIn lane s.history := by
          rw [hhistory, collectedIn_append]
          exact List.append_nil _
        rw [hcollected, h.fifo lane, hqueues, pickedIn, pickedIn, hpicks, List.filter_append,
          List.map_append, List.append_assoc]
        by_cases hsame : lane = pick.lane
        · subst hsame
          rw [hhead, Queues.get_set_same]
          simp
        · rw [Queues.get_set_ne _ _ hsame]
          simp [Ne.symm hsame]
      turn := by
        rw [hnext, hpicks, turnAfter_concat, selectLane_turn hturn, ← hlane, ← h.turn]
      background := fun p hp hbackground => by
        rw [hpicks] at hp
        rcases List.mem_append.mp hp with hp | hp
        · exact h.background p hp hbackground
        · rw [List.mem_singleton.mp hp] at hbackground ⊢
          obtain ⟨hnoPrimary, hnoLive⟩ := selectLane_background hturn (hlane.symm.trans hbackground)
          rw [hprimary, hlive, hnoPrimary, hnoLive]
          exact ⟨rfl, rfl⟩
      alternates := by
        rw [hpicks]
        refine along_concat.mpr ⟨h.alternates, fun hcontended => ?_⟩
        obtain ⟨hp, hl⟩ := hcontended
        rw [hprimary] at hp
        rw [hlive] at hl
        rw [hlane, selectLane_contended (of_decide_eq_true hp) (of_decide_eq_true hl), h.turn]
      starts := by
        rw [hstarted, hpicks, List.map_append]
        exact h.starts.trans (List.sublist_append_left ..)
      startable := fun id hid => by
        rw [hloop] at hid
        cases hid
        exact ⟨(picks s.history).map Pick.id, by rw [hpicks, List.map_append]; rfl,
          hstarted ▸ h.starts⟩
      waits := by
        rw [hhistory, hqueues, hnext]
        exact h.waits.pick hturn hlane hhead }

theorem SchedInv.start (h : SchedInv s) {id : Nat} (hqueues : s'.queues = s.queues)
    (hnext : s'.nextLive = s.nextLive) (hpicked : s.loop = .picked id)
    (hloop : s'.loop = .running id) (hhistory : s'.history = s.history ++ [.started id]) :
    SchedInv s' := by
  have hpicks : picks s'.history = picks s.history := by
    rw [hhistory, picks_append]
    exact List.append_nil _
  obtain ⟨init, hinit, hsub⟩ := h.startable id hpicked
  exact
    { fifo := fun lane => by
        have hcollected : collectedIn lane s'.history = collectedIn lane s.history := by
          rw [hhistory, collectedIn_append]
          exact List.append_nil _
        rw [hcollected, pickedIn, hpicks, hqueues]
        exact h.fifo lane
      turn := by rw [hnext, hpicks, h.turn]
      background := by rw [hpicks]; exact h.background
      alternates := by rw [hpicks]; exact h.alternates
      starts := by
        rw [hpicks, hinit, hhistory, startedIds_append]
        exact hsub.append (List.Sublist.refl _)
      startable := fun id' hid => by
        rw [hloop] at hid
        cases hid
      waits := by
        rw [hhistory, hqueues, hnext]
        exact h.waits.other rfl (by simp) }

/-- The step lemma. -/
theorem SchedInv.step (h : SchedInv s) (hstep : SchedStep s s') : SchedInv s' := by
  cases hstep with
  | quiet events hevents hqueues hnext hloop hhistory =>
    exact h.quiet hevents hqueues hnext hloop hhistory
  | collect id lane hqueues hnext hloop hhistory => exact h.collect hqueues hnext hloop hhistory
  | pick id rest hhead hqueues hnext hloop hhistory =>
    exact h.pick rfl rfl rfl hhead hqueues hnext hloop hhistory
  | start id hqueues hnext hpicked hloop hhistory =>
    exact h.start hqueues hnext hpicked hloop hhistory

/-- The run lemma. -/
theorem schedInv : writeCoordinator.InductiveOn (fun _ _ => True) SchedInv where
  init s hs := by
    subst hs
    exact
      { fifo := fun lane => by cases lane <;> rfl
        turn := rfl
        background := by simp [newWriteCoordinator, picks]
        alternates := along_nil
        starts := List.Sublist.refl _
        startable := by simp [newWriteCoordinator]
        waits := fun before id lane after hsplit => by simp [newWriteCoordinator] at hsplit }
  step _ _ _ h _ hstep := h.step (schedStep_of_step hstep)

/-! ## The main result -/

/-- **Fair scheduling.** In every run: (1) each lane is picked in the order of
collection, and functions are called in the order of the picks; (2) background
work is picked only when no live request waits; (3) while both live lanes wait
they alternate; (4) a live request with `k` requests of its lane ahead is
preceded by at most `2 * k + 1` picks. -/
theorem schedule_fair {s : Coordinator} (hs : writeCoordinator.Reachable s) :
    (∀ lane, pickedIn lane s.history <+: collectedIn lane s.history) ∧
    (startedIds s.history).Sublist ((picks s.history).map Pick.id) ∧
    (∀ pick ∈ picks s.history, pick.lane = .background →
      pick.hasPrimary = false ∧ pick.hasLive = false) ∧
    Along (fun earlier pick => Pick.Contended pick → pick.lane = turnAfter earlier)
      (picks s.history) ∧
    ∀ before id lane after, s.history = before ++ .collected id lane :: after →
      lane ≠ .background → picksBefore id (picks after) ≤ 2 * waitingIn lane before + 1 := by
  have h := schedInv.invariant hs
  refine ⟨fun lane => ⟨_, (h.fifo lane).symm⟩, h.starts, h.background, h.alternates, ?_⟩
  intro before id lane after hsplit hlane
  rcases h.waits before id lane after hsplit hlane with ⟨-, hle⟩ | ⟨-, k, -, hle⟩
  · exact hle
  · have : picksBefore id (picks after) ≤ (picks after).length := List.takeWhile_prefix _ |>.length_le
    omega

/-! ## Runs -/

/-- While a primary write runs, one request comes in on each lane. -/
def backlog : List WriteAct :=
  [.call .primary true, .offer 0, .receive, .pick, .check, .call .background true, .offer 1,
    .call .primary true, .offer 2, .call .liveCore true, .offer 3, .fnReturns none, .deliver,
    .receive, .drain, .drain, .pick, .check, .fnReturns none, .deliver, .pick, .check,
    .fnReturns none, .deliver, .pick, .check]

/-- The backlog is served in turn, with the background request last. -/
theorem backlog_in_turn :
    ∃ s, writeCoordinator.Reachable s ∧
      (picks s.history).map Pick.lane = [.primary, .liveCore, .primary, .background] ∧
      (∀ lane, pickedIn lane s.history <+: collectedIn lane s.history) ∧
      (startedIds s.history).Sublist ((picks s.history).map Pick.id) ∧
      (∀ pick ∈ picks s.history, pick.lane = .background →
        pick.hasPrimary = false ∧ pick.hasLive = false) ∧
      Along (fun earlier pick => Pick.Contended pick → pick.lane = turnAfter earlier)
        (picks s.history) ∧
      ∀ before id lane after, s.history = before ++ .collected id lane :: after →
        lane ≠ .background → picksBefore id (picks after) ≤ 2 * waitingIn lane before + 1 := by
  obtain ⟨s, hs, htest⟩ := TSys.exists_reachable_of_run backlog
    (fun s : Coordinator => decide ((picks s.history).map Pick.lane =
      [.primary, .liveCore, .primary, .background])) newWriteCoordinator_init (by decide +kernel)
  exact ⟨s, hs, of_decide_eq_true htest, schedule_fair hs⟩

/-- The first selection at which both live lanes wait is primary. -/
def FirstIsPrimary (s : Coordinator) : Prop :=
  Along (fun earlier pick => Pick.Contended pick → (∀ p ∈ earlier, ¬ Pick.Contended p) →
    pick.lane = .primary) (picks s.history)

instance (s : Coordinator) : Decidable (FirstIsPrimary s) := by
  unfold FirstIsPrimary
  infer_instance

/-- The lane of the last live request whose function was called. -/
def lastExecuted (history : List WriteEvent) : Option WriteLane :=
  (((picks history).filter fun pick =>
    pick.lane ≠ .background ∧ pick.id ∈ startedIds history).getLast?).map Pick.lane

/-- A selection with both live lanes waiting takes the lane that was not
executed last, where only calls of functions are executions. -/
def DiffersFromExecuted (before : List WriteEvent) : WriteEvent → Prop
  | .picked pick => Pick.Contended pick → lastExecuted before ≠ some pick.lane
  | _ => True

instance (before : List WriteEvent) (e : WriteEvent) :
    Decidable (DiffersFromExecuted before e) := by
  cases e <;> (unfold DiffersFromExecuted; infer_instance)

/-- A live-core request is cancelled before it is picked, between two primary
ones. -/
def cancelledBetween : List WriteAct :=
  [.call .primary true, .offer 0, .receive, .pick, .check, .call .liveCore true, .offer 1,
    .cancel 1 .canceled, .fnReturns none, .deliver, .receive, .pick, .check, .call .primary true,
    .offer 2, .call .liveCore true, .offer 3, .deliver, .receive, .drain, .pick, .check]

/-- The first contended selection need not be primary, and a picked request
whose function is not called takes its lane's turn. -/
theorem turns_count_picks :
    (¬ ∀ s, writeCoordinator.Reachable s → FirstIsPrimary s) ∧
      ¬ ∀ s, writeCoordinator.Reachable s → Along DiffersFromExecuted s.history := by
  constructor
  · intro h
    obtain ⟨s, hs, htest⟩ := TSys.exists_reachable_of_run backlog
      (fun s : Coordinator => decide (¬ FirstIsPrimary s)) newWriteCoordinator_init
      (by decide +kernel)
    exact of_decide_eq_true htest (h s hs)
  · intro h
    obtain ⟨s, hs, htest⟩ := TSys.exists_reachable_of_run cancelledBetween
      (fun s : Coordinator => decide (¬ Along DiffersFromExecuted s.history)) newWriteCoordinator_init
      (by decide +kernel)
    exact of_decide_eq_true htest (h s hs)

end CartoLive.Theorems.WriteScheduling
